import Mathlib.Data.List.Basic
import AddMessenger.Mealy
import AddMessenger.Tables

/-!
# The chat store of the desktop client

`desktop-ui/src/store/chatStore.ts` and `desktop-ui/src/lib/attachment.ts`: conversations and
messages, the mail a poll brings in, and the copy in `localStorage`. Ids and times that the
browser draws are arguments, and so is the picture made from a null id by
`desktop-ui/src/lib/identicon.ts`, where `btoa` throws if the initials are outside Latin-1.
-/

namespace ChatStore

open Tables

structure AttachmentMeta where
  name : String
  mime : String
  size : Nat
  data : String
  deriving DecidableEq, Repr

structure ParsedAttachment where
  file : AttachmentMeta
  caption : String
  deriving DecidableEq, Repr

def maxAttachmentBytes : Nat := 5 * 1024 * 1024

def knownStickers : List String := [
  "AgAD0wEAArMeMEc.webp", "AgAD1AIAAiSuMEc.webp", "AgAD3wEAAgNOMUc.webp",
  "AgAD4QEAAlsHMEc.webp", "AgAD4QEAAvD4KUc.webp", "AgAD5wIAAohuMUc.webp",
  "AgAD6AEAArydMUc.webp", "AgAD8gMAAlkNKEc.webp", "AgAD9AEAAs0iKEc.webp",
  "AgADAQIAAs-QMUc.webp", "AgADCQIAAogeKUc.webp", "AgADDwIAAlCNKEc.webp",
  "AgADFQIAAofXMUc.webp", "AgADIAIAAljNMUc.webp", "AgADIAMAAgnYGUQ.webp",
  "AgADJQMAAjUwKEc.webp", "AgADJQMAArRdKUc.webp", "AgADJgIAAhurMEc.webp",
  "AgADKQIAAm-aKEc.webp", "AgADKQIAAnM7MUc.webp", "AgADKwIAAonnMUc.webp",
  "AgADLwMAAoU-MUc.webp", "AgADMAIAAlQ7KEc.webp", "AgADMAQAAhyYKEc.webp",
  "AgADNQIAAiZ8MEc.webp", "AgADNwIAAh8GKEc.webp", "AgADQAUAAoiEMEc.webp",
  "AgADVAIAApvVMUc.webp", "AgADVgMAAnNoMEc.webp", "AgADXwIAAvZ9MUc.webp",
  "AgADZAIAApt9MEc.webp", "AgAD_wEAAg62MUc.webp", "AgADaAMAAhABMEc.webp",
  "AgADagIAApFlKEc.webp", "AgADbQEAAgXqKUc.webp", "AgADcQIAAvC5MEc.webp",
  "AgADdgIAAh7pMUc.webp", "AgADfAIAApqyMEc.webp", "AgADgAIAAgxWKEc.webp",
  "AgADggIAAtYxKUc.webp", "AgADhAIAAlmOKEc.webp", "AgADiQIAAqbhMEc.webp",
  "AgADkgIAAhc3KUc.webp", "AgADlAEAAp7xMEc.webp", "AgADngIAAv9iMUc.webp",
  "AgADqAEAAur2MEc.webp", "AgADtAIAAv1TMUc.webp", "AgADtQIAAitvMUc.webp",
  "AgADvgEAAkdyKEc.webp", "AgADyQcAAuN4BAAB.webp", "AgADywIAAn6AIEQ.webp"]

/-- The control character around an envelope. -/
def mark : Char := Char.ofNat 1

def isBase64 (c : Char) : Bool := c.isAlphanum || c = '+' || c = '/' || c = '='

/-- A match of `ATTACHMENT_RE`: name, mime, size and data. No group spans lines. -/
def matchAttachment (body : String) : Option (List Char × List Char × List Char × List Char) :=
  match body.toList.splitOn '\n' with
  | [head, name, mime, size, data, foot] =>
    if head.dropLast = mark :: "ADDATT v".toList ∧ (head.getLast?.any Char.isDigit) = true ∧
        name ≠ [] ∧ size ≠ [] ∧ size.all Char.isDigit ∧ data.all isBase64 ∧
        foot = mark :: "ENDADDATT".toList then
      some (name, mime, size, data)
    else none
  | _ => none

/-- `parseInt`; what is too large for a double is too large for an attachment. -/
def parseInt (digits : List Char) : Nat :=
  digits.foldl (fun n d => n * 10 + (d.toNat - '0'.toNat)) 0

def parseAttachment (body : String) : Option ParsedAttachment :=
  match matchAttachment body with
  | none => none
  | some (name, mime, digits, data) =>
    let name := String.ofList name
    let size := parseInt digits
    if size = 0 ∧ data = [] ∧ knownStickers.contains name then
      some ⟨⟨name, "image/webp", 0, ""⟩, ""⟩
    else if maxAttachmentBytes < size then none
    else some ⟨⟨name, String.ofList mime, size, String.ofList data⟩, ""⟩

def attachmentOf (content : String) : Option AttachmentMeta :=
  (parseAttachment content).map ParsedAttachment.file

inductive MessageStatus where
  | sending | sent | delivered | read | error
  deriving DecidableEq, Repr

/-- A message; its time is in milliseconds. -/
structure Message where
  id : String
  content : String
  timestamp : Int
  status : MessageStatus
  senderId : String
  ttl : Option String
  attachment : Option AttachmentMeta
  deriving DecidableEq, Repr

structure Conversation where
  id : String
  name : String
  fingerprint : Option String
  avatarUrl : Option String
  lastMessage : Option String
  lastMessageTimestamp : Option Int
  unreadCount : Nat
  isOnline : Option Bool
  isGroup : Option Bool
  deriving DecidableEq, Repr

/-- An object with conversations as keys. -/
abbrev Messages := List (String × List Message)

/-- The names that every object has from its prototype. -/
def inheritedNames : List String := [
  "constructor", "hasOwnProperty", "isPrototypeOf", "propertyIsEnumerable", "toLocaleString",
  "toString", "valueOf", "__defineGetter__", "__defineSetter__", "__lookupGetter__",
  "__lookupSetter__", "__proto__"]

/-- Whether `messages[id]` is inherited: it is then neither falsy nor a list, and a call that
spreads or maps it throws. -/
def Messages.inherits (messages : Messages) (id : String) : Bool :=
  (messages.lookup id).isNone && inheritedNames.contains id

/-- `messages[id] || []`, but for an inherited name. -/
def Messages.of (messages : Messages) (id : String) : List Message :=
  (messages.lookup id).getD []

/-- The object with one key set. -/
def Messages.set (id : String) (list : List Message) : Messages → Messages
  | [] => [(id, list)]
  | (name, old) :: rest =>
    if name = id then (name, list) :: rest else (name, old) :: Messages.set id list rest

/-- What `localStorage` holds under the key of the store. -/
structure Saved where
  conversations : List Conversation
  messages : Messages

structure State where
  activeConversationId : Option String
  conversations : List Conversation
  messages : Messages
  myId : Option String
  seenIncoming : List String
  localStorage : Option Saved
  -- conversation and message of the sends that have not settled
  sends : List (String × String)

/-- The store that a call leaves, whether it returns or throws. -/
def storeAfter : Except State State → State
  | .ok s => s
  | .error s => s

/-- An id or time of the browser's. -/
structure Draw where
  id : String
  createdAt : Int
  now : Int

def incomingKey (sender text : String) : String := sender ++ String.ofList [Char.ofNat 0] ++ text

/-- What the key of an attachment is made from. -/
def attachmentKey (a : AttachmentMeta) : String :=
  String.ofList [Char.ofNat 0] ++ a.name ++ String.ofList [Char.ofNat 0] ++ toString a.size

/-- An absent or empty id is falsy. -/
def truthy (id : Option String) : Option String := id.filter fun id => id ≠ ""

-- `none` where the picture cannot be made
variable (avatar : String → Option String)

def sanitize (m : Message) : Message :=
  { m with attachment := m.attachment.map fun a => { a with data := "" } }

def persist (s : State) : State :=
  { s with localStorage := some ⟨s.conversations,
      s.messages.map fun (id, list) => (id, list.map sanitize)⟩ }

/-- `{ ...c, ...conversation }`; an absent field does not overwrite. -/
def Conversation.merge (c conversation : Conversation) : Conversation where
  id := conversation.id
  name := conversation.name
  fingerprint := conversation.fingerprint.or c.fingerprint
  avatarUrl := conversation.avatarUrl.or c.avatarUrl
  lastMessage := conversation.lastMessage.or c.lastMessage
  lastMessageTimestamp := conversation.lastMessageTimestamp.or c.lastMessageTimestamp
  unreadCount := conversation.unreadCount
  isOnline := conversation.isOnline.or c.isOnline
  isGroup := conversation.isGroup.or c.isGroup

/-- The conversations with those of one id changed. -/
def updateConversation (s : State) (id : String) (f : Conversation → Conversation) : State :=
  { s with conversations := s.conversations.map fun c => if c.id = id then f c else c }

def addConversation (s : State) (conversation : Conversation) : State :=
  if truthy s.myId = some conversation.id then s
  else if s.conversations.any fun c => c.id = conversation.id then
    persist (updateConversation s conversation.id fun c => c.merge conversation)
  else persist { s with conversations := conversation :: s.conversations }

def addMessage (s : State) (conversationId : String) (message : Message) : Except State State :=
  if s.messages.inherits conversationId then .error s
  else
    .ok (persist (updateConversation
      { s with messages :=
          s.messages.set conversationId (s.messages.of conversationId ++ [message]) }
      conversationId fun c =>
        { c with lastMessage := some message.content
                 lastMessageTimestamp := some message.timestamp }))

/-- A call that throws changes nothing. -/
def updateMessageStatus (s : State) (conversationId messageId : String)
    (status : MessageStatus) : State :=
  if s.messages.inherits conversationId then s
  else
    let list := (s.messages.of conversationId).map fun msg =>
      if msg.id = messageId then { msg with status } else msg
    { s with messages := s.messages.set conversationId list }

def markAsRead (s : State) (conversationId : String) : State :=
  updateConversation s conversationId fun c => { c with unreadCount := 0 }

def renameAlias (s : State) (nullId name : String) : State :=
  updateConversation s nullId fun c => { c with name }

/-- The line under a conversation for an attachment. -/
def attachmentLine (a : AttachmentMeta) : String :=
  (if a.mime.startsWith "image/" then "📷" else "📎") ++ " " ++ a.name

/-- What the key of an incoming message is made from. -/
def dedupeContent (content : String) : String :=
  match attachmentOf content with
  | some a => attachmentKey a
  | none => content

def addIncomingMessage (s : State) (draw : Draw) (conversationId content : String) :
    Except State State :=
  let attachment := attachmentOf content
  let body := if attachment.isSome then "" else content
  let key := incomingKey conversationId (dedupeContent content)
  if key ∈ s.seenIncoming then .ok s
  else
    -- the key stays when the append throws
    let s := { s with seenIncoming := key :: s.seenIncoming }
    if s.messages.inherits conversationId then .error s
    else
      let message : Message :=
        { id := draw.id, content := body, timestamp := draw.now, senderId := conversationId,
          status := .read, ttl := none, attachment }
      let isActive := s.activeConversationId = some conversationId
      .ok (persist (updateConversation
        { s with messages :=
            s.messages.set conversationId (s.messages.of conversationId ++ [message]) }
        conversationId fun c =>
          { c with
            lastMessage := some (match attachment with
              | some a => attachmentLine a
              | none => body)
            lastMessageTimestamp := some message.timestamp
            unreadCount := if isActive then 0 else c.unreadCount + 1 }))

structure Item where
  sender : String
  text : String
  deriving DecidableEq, Repr

/-- The conversation of a sender who has none. -/
def firstContact (sender avatarUrl : String) (since : Int) : Conversation where
  id := sender
  name := sender
  fingerprint := none
  avatarUrl := some avatarUrl
  lastMessage := some ""
  lastMessageTimestamp := some since
  unreadCount := 0
  isOnline := some false
  isGroup := some false

/-- The conversation of a sender is made if it is not among those from before the poll. -/
def ensureConversation (known : List Conversation) (s : State) (draw : Draw) (sender : String) :
    Except State State :=
  if known.any fun c => c.id = sender then .ok s
  else
    match avatar sender with
    | none => .error s
    | some url => .ok (addConversation s (firstContact sender url draw.createdAt))

/-- The body of the loop in `loadMessages`; `known` are the conversations from before it. -/
def receive (known : List Conversation) (s : State) (draw : Draw) (item : Item) :
    Except State State :=
  if truthy s.myId = some item.sender then .ok s
  else
    let key := incomingKey item.sender item.text
    if key ∈ s.seenIncoming then .ok s
    else do
      let s ← ensureConversation avatar known { s with seenIncoming := key :: s.seenIncoming }
        draw item.sender
      addIncomingMessage s draw item.sender item.text

/-- The loop; a round that throws ends the poll. -/
def receiveAll (known : List Conversation) (draws : Nat → Draw) :
    State → Nat → List Item → Except State State
  | s, _, [] => .ok s
  | s, i, item :: rest => do
    let s ← receive avatar known s (draws i) item
    receiveAll known draws s (i + 1) rest

/-- What `add read --json` comes to. -/
inductive ReadResult where
  | failed
  | noArray
  | items (list : List Item)

def loadMessages (s : State) (draws : Nat → Draw) : ReadResult → Except State State
  | .failed | .noArray => .ok s
  | .items list => receiveAll avatar s.conversations draws s 0 list

/-- A poll: what the command returns, and the ids and times drawn for its items. -/
structure Poll where
  result : ReadResult
  draws : Nat → Draw

def Poll.items (poll : Poll) : List Item :=
  match poll.result with
  | .items list => list
  | _ => []

/-- The store after some polls. -/
def pollAll (s : State) (polls : List Poll) : State :=
  polls.foldl (fun s poll => storeAfter (loadMessages avatar s poll.draws poll.result)) s

/-- The items from other parties. -/
def received (myId : Option String) (polls : List Poll) : List Item :=
  (polls.flatMap Poll.items).filter fun item => truthy myId ≠ some item.sender

/-- What a message shows. -/
def display (m : Message) : String × Option AttachmentMeta := (m.content, m.attachment)

/-- What an item should show: a plain text, or an attachment. -/
def shown (item : Item) : String × Option AttachmentMeta :=
  match attachmentOf item.text with
  | some a => ("", some a)
  | none => (item.text, none)

/-- After each poll every distinct item is shown once, in order of first arrival. -/
def ShowsOnce (s : State) (polls : List Poll) : Prop :=
  ∀ front back, polls = front ++ back → ∀ sender,
    ((pollAll avatar s front).messages.of sender).map display =
      ((firsts id [] (received s.myId front)).filter fun item => item.sender = sender).map shown

/-- The keys of the two checks on an item's way. -/
def dedupeKeys (item : Item) : List String :=
  [incomingKey item.sender item.text, incomingKey item.sender (dedupeContent item.text)]

/-- Whether mail of a sender gets through the loop without a throw. -/
def receivable (known : List Conversation) (messages : Messages) (sender : String) : Bool :=
  ((known.any fun c => c.id = sender) || (avatar sender).isSome) && !messages.inherits sender

/-- Whether an item passes the two checks, and the keys seen then. -/
def admitItem (seen : List String) (item : Item) : Bool × List String :=
  let first := incomingKey item.sender item.text
  let second := incomingKey item.sender (dedupeContent item.text)
  if first ∈ seen then (false, seen)
  else if second ∈ first :: seen then (false, first :: seen)
  else (true, second :: first :: seen)

/-- The items that pass both checks. -/
def passing (seen : List String) (items : List Item) : List Item :=
  Mealy.kept admitItem (fun passed => !passed) seen items

section

variable {avatar}

theorem Messages.lookup_cons (name other : String) (list : List Message) (rest : Messages) :
    List.lookup other ((name, list) :: rest) =
      if other = name then some list else rest.lookup other := by
  by_cases same : other = name
  · simp [same]
  · rw [if_neg same, List.lookup_cons, beq_false_of_ne same]

theorem Messages.of_cons (name other : String) (list : List Message) (rest : Messages) :
    Messages.of ((name, list) :: rest) other = if other = name then list else rest.of other := by
  rw [Messages.of, Messages.lookup_cons]
  split <;> rfl

theorem Messages.lookup_set (id other : String) (list : List Message) (messages : Messages) :
    (messages.set id list).lookup other =
      if other = id then some list else messages.lookup other := by
  induction messages with
  | nil => exact Messages.lookup_cons id other list []
  | cons entry rest ih =>
    obtain ⟨name, old⟩ := entry
    rw [Messages.set]
    by_cases here : name = id
    · rw [if_pos here, Messages.lookup_cons, Messages.lookup_cons, here]
      split <;> rfl
    · rw [if_neg here, Messages.lookup_cons, Messages.lookup_cons, ih]
      by_cases same : other = name
      · rw [if_pos same, if_pos same, if_neg (same ▸ here)]
      · rw [if_neg same, if_neg same]

@[simp] theorem Messages.of_set (id other : String) (list : List Message) (messages : Messages) :
    (messages.set id list).of other = if other = id then list else messages.of other := by
  rw [Messages.of, Messages.lookup_set]
  split <;> rfl

theorem Messages.inherits_eq_false_of_nil {id : String} (own : Messages.inherits [] id = false)
    (messages : Messages) : messages.inherits id = false := by
  rw [Messages.inherits, List.lookup_nil, Option.isNone_none, Bool.true_and] at own
  rw [Messages.inherits, own, Bool.and_false]

theorem Messages.of_eq_nil_of_inherits {messages : Messages} {id : String}
    (inherits : messages.inherits id = true) : messages.of id = [] := by
  have none_ := Option.isNone_iff_eq_none.mp (Bool.and_eq_true_iff.mp inherits).1
  rw [Messages.of, none_]
  rfl

/-- The messages after an update, also after one that throws. -/
theorem of_updateMessageStatus (s : State) (conversationId messageId : String)
    (status : MessageStatus) (id : String) :
    (updateMessageStatus s conversationId messageId status).messages.of id =
      if id = conversationId then (s.messages.of conversationId).map fun msg =>
        if msg.id = messageId then { msg with status } else msg
      else s.messages.of id := by
  rw [updateMessageStatus]
  split
  · next inherits =>
    rw [Messages.of_eq_nil_of_inherits inherits]
    split
    · next here => rw [here, Messages.of_eq_nil_of_inherits inherits, List.map_nil]
    · rfl
  · exact Messages.of_set conversationId id _ s.messages

theorem updateMessageStatus_frame (s : State) (conversationId messageId : String)
    (status : MessageStatus) :
    (updateMessageStatus s conversationId messageId status).conversations = s.conversations ∧
      (updateMessageStatus s conversationId messageId status).localStorage = s.localStorage := by
  rw [updateMessageStatus]
  split <;> exact ⟨rfl, rfl⟩

theorem any_id_iff {conversations : List Conversation} {id : String} :
    (conversations.any fun c => c.id = id) = true ↔ id ∈ conversations.map Conversation.id := by
  simp

theorem receivable_iff {known : List Conversation} {messages : Messages} {sender : String} :
    receivable avatar known messages sender = true ↔
      (sender ∈ known.map Conversation.id ∨ (avatar sender).isSome = true) ∧
        messages.inherits sender = false := by
  rw [receivable, Bool.and_eq_true, Bool.or_eq_true, any_id_iff, Bool.not_eq_true']

theorem updateConversation_ids (s : State) (id : String) {f : Conversation → Conversation}
    (same : ∀ c, c.id = id → (f c).id = id) :
    (updateConversation s id f).conversations.map Conversation.id =
      s.conversations.map Conversation.id := by
  rw [updateConversation, List.map_map]
  refine List.map_congr_left fun c _ => ?_
  by_cases here : c.id = id
  · simp [here, same c here]
  · simp [here]

theorem addConversation_frame (s : State) (c : Conversation) :
    (addConversation s c).messages = s.messages ∧ (addConversation s c).myId = s.myId ∧
      (addConversation s c).seenIncoming = s.seenIncoming := by
  rw [addConversation]
  split
  · exact ⟨rfl, rfl, rfl⟩
  · split <;> exact ⟨rfl, rfl, rfl⟩

theorem addConversation_ids (s : State) (c : Conversation) :
    (addConversation s c).conversations.map Conversation.id =
        s.conversations.map Conversation.id ∨
      (addConversation s c).conversations.map Conversation.id =
        c.id :: s.conversations.map Conversation.id := by
  rw [addConversation]
  split
  · exact .inl rfl
  · split
    · exact .inl (updateConversation_ids s c.id fun _ _ => rfl)
    · exact .inr rfl

/-- What an incoming message adds to the lists, if it is added. -/
def Appends (messages after : Messages) (item : Item) (added : Bool) : Prop :=
  ∃ m, display m = shown item ∧
    after = if added then messages.set item.sender (messages.of item.sender ++ [m]) else messages

theorem Appends.lists {messages after : Messages} {item : Item} {added : Bool}
    (appends : Appends messages after item added) (sender : String) :
    (after.of sender).map display = (messages.of sender).map display ++
      if added = true ∧ item.sender = sender then [shown item] else [] := by
  obtain ⟨m, shows, rfl⟩ := appends
  cases added with
  | false => simp
  | true =>
    rw [if_pos rfl, Messages.of_set]
    by_cases same : sender = item.sender
    · subst same
      simp [shows]
    · rw [if_neg same, if_neg fun both => same both.2.symm, List.append_nil]

theorem display_incoming (draw : Draw) (item : Item) :
    display
      { id := draw.id, content := if (attachmentOf item.text).isSome then "" else item.text,
        timestamp := draw.now, senderId := item.sender, status := .read, ttl := none,
        attachment := attachmentOf item.text } = shown item := by
  rw [display, shown]
  cases attachmentOf item.text <;> rfl

/-- An incoming message behind its check. -/
theorem addIncomingMessage_spec (s : State) (draw : Draw) (item : Item) :
    let key := incomingKey item.sender (dedupeContent item.text)
    let after := storeAfter (addIncomingMessage s draw item.sender item.text)
    after.myId = s.myId ∧ after.conversations.map Conversation.id =
      s.conversations.map Conversation.id ∧
    after.seenIncoming = (if key ∉ s.seenIncoming then key :: s.seenIncoming
      else s.seenIncoming) ∧
    Appends s.messages after.messages item
      (decide (key ∉ s.seenIncoming) && !s.messages.inherits item.sender) := by
  intro key after
  have shows := display_incoming draw item
  by_cases seen : key ∈ s.seenIncoming
  · have same : after = s := congrArg storeAfter (if_pos seen)
    rw [same, if_neg (not_not_intro seen), decide_eq_false (not_not_intro seen)]
    exact ⟨rfl, rfl, rfl, _, shows, rfl⟩
  · rw [if_pos seen, decide_eq_true seen, Bool.true_and]
    simp only [after, addIncomingMessage, if_neg (show incomingKey _ _ ∉ _ from seen)]
    cases s.messages.inherits item.sender with
    | true => exact ⟨rfl, rfl, rfl, _, shows, rfl⟩
    | false => exact ⟨rfl, updateConversation_ids _ _ fun _ here => here, rfl, _, shows, rfl⟩

/-- The conversation of a sender, or the throw where its picture cannot be made. -/
theorem ensureConversation_spec (known : List Conversation) (s : State) (draw : Draw)
    (sender : String) :
    (((known.any fun c => c.id = sender) || (avatar sender).isSome) = false ∧
      ensureConversation avatar known s draw sender = .error s) ∨
    (((known.any fun c => c.id = sender) || (avatar sender).isSome) = true ∧ ∃ t,
      ensureConversation avatar known s draw sender = .ok t ∧ t.messages = s.messages ∧
      t.myId = s.myId ∧ t.seenIncoming = s.seenIncoming ∧
      (t.conversations.map Conversation.id = s.conversations.map Conversation.id ∨
        (avatar sender).isSome = true ∧
          t.conversations.map Conversation.id =
            sender :: s.conversations.map Conversation.id)) := by
  rw [ensureConversation]
  cases met : known.any fun c => c.id = sender with
  | true => exact .inr ⟨rfl, s, rfl, rfl, rfl, rfl, .inl rfl⟩
  | false =>
    cases avatar sender with
    | none => exact .inl ⟨rfl, rfl⟩
    | some url =>
      obtain ⟨messages, myId, keys⟩ := addConversation_frame s
        (firstContact sender url draw.createdAt)
      refine .inr ⟨rfl, _, rfl, messages, myId, keys, ?_⟩
      exact (addConversation_ids s (firstContact sender url draw.createdAt)).imp_right
        fun ids => ⟨rfl, ids⟩

/-- An item that passes the first check. -/
theorem admitItem_fresh {seen : List String} {item : Item}
    (first : incomingKey item.sender item.text ∉ seen) :
    let second := incomingKey item.sender (dedupeContent item.text)
    let noted := incomingKey item.sender item.text :: seen
    admitItem seen item =
      (decide (second ∉ noted), if second ∉ noted then second :: noted else noted) := by
  intro second noted
  rw [admitItem, if_neg first]
  by_cases again : second ∈ noted
  · rw [if_pos again, if_neg (not_not_intro again), decide_eq_false (not_not_intro again)]
  · rw [if_neg again, if_pos again, decide_eq_true again]

/-- One item of a poll, against the two checks and the two throws. -/
theorem receive_spec {known : List Conversation} {s : State} {draw : Draw} {item : Item}
    (other : truthy s.myId ≠ some item.sender) :
    let after := storeAfter (receive avatar known s draw item)
    after.myId = s.myId ∧
    Appends s.messages after.messages item
      ((admitItem s.seenIncoming item).1 && receivable avatar known s.messages item.sender) ∧
    (after.conversations.map Conversation.id = s.conversations.map Conversation.id ∨
      (avatar item.sender).isSome = true ∧ after.conversations.map Conversation.id =
        item.sender :: s.conversations.map Conversation.id) := by
  rw [receive, if_neg other]
  by_cases seen : incomingKey item.sender item.text ∈ s.seenIncoming
  · have stale : (admitItem s.seenIncoming item).1 = false := by rw [admitItem, if_pos seen]
    simp only [if_pos seen, stale, Bool.false_and]
    exact ⟨rfl, ⟨_, display_incoming draw item, rfl⟩, .inl rfl⟩
  simp only [if_neg seen, admitItem_fresh seen, receivable]
  rcases @ensureConversation_spec avatar known
      { s with seenIncoming := incomingKey item.sender item.text :: s.seenIncoming } draw
      item.sender with ⟨closed, throws⟩ | ⟨met, t, returns, messages, myId, keys, ids⟩
  · rw [throws, closed, Bool.false_and, Bool.and_false]
    exact ⟨rfl, ⟨_, display_incoming draw item, rfl⟩, .inl rfl⟩
  · rw [returns, met, Bool.true_and]
    obtain ⟨kept, same, -, appends⟩ := addIncomingMessage_spec t draw item
    rw [keys, messages] at appends
    exact ⟨kept.trans myId, appends, ids.imp same.trans fun both => ⟨both.1, same.trans both.2⟩⟩

/-- A round without a throw notes the keys of its item. -/
theorem receive_ok {known : List Conversation} {s : State} {draw : Draw} {item : Item}
    (other : truthy s.myId ≠ some item.sender)
    (open_ : receivable avatar known s.messages item.sender = true) :
    ∃ t, receive avatar known s draw item = .ok t ∧
      t.seenIncoming = (admitItem s.seenIncoming item).2 := by
  obtain ⟨met, own⟩ := receivable_iff.mp open_
  rw [receive, if_neg other]
  by_cases seen : incomingKey item.sender item.text ∈ s.seenIncoming
  · exact ⟨s, by simp only [if_pos seen], by rw [admitItem, if_pos seen]⟩
  simp only [if_neg seen, admitItem_fresh seen]
  rcases @ensureConversation_spec avatar known
      { s with seenIncoming := incomingKey item.sender item.text :: s.seenIncoming } draw
      item.sender with ⟨closed, -⟩ | ⟨-, t, returns, messages, -, keys, -⟩
  · obtain ⟨unknown, noPicture⟩ := Bool.or_eq_false_iff.mp closed
    rcases met with there | picture
    · exact absurd ((any_id_iff.mpr there).symm.trans unknown) (by decide)
    · exact absurd (picture.symm.trans noPicture) (by decide)
  · rw [returns]
    have returned : ∃ u, addIncomingMessage t draw item.sender item.text = .ok u := by
      have mine : t.messages.inherits item.sender = false := by rw [messages, own]
      simp only [addIncomingMessage, mine]
      split
      · exact ⟨_, rfl⟩
      · exact ⟨_, rfl⟩
    obtain ⟨u, added⟩ := returned
    have after := (addIncomingMessage_spec t draw item).2.2.1
    rw [added, keys] at after
    exact ⟨u, added, after⟩

/-- Whoever is known or has a picture, and has no inherited name, stays receivable. -/
theorem receivable_mono {known later : List Conversation} {sender : String}
    (ids : ∀ id ∈ known.map Conversation.id, id ∈ later.map Conversation.id)
    (open_ : receivable avatar known [] sender = true) (messages : Messages) :
    receivable avatar later messages sender = true := by
  obtain ⟨met, own⟩ := receivable_iff.mp open_
  exact receivable_iff.mpr
    ⟨met.imp_left (ids sender), Messages.inherits_eq_false_of_nil own messages⟩

/-- The rounds of a poll in which nothing throws. -/
theorem receiveAll_spec (known : List Conversation) (draws : Nat → Draw) (items : List Item)
    (s : State) (i : Nat)
    (open_ : ∀ item ∈ items, truthy s.myId ≠ some item.sender →
      receivable avatar known [] item.sender = true) :
    let others := items.filter fun item => truthy s.myId ≠ some item.sender
    ∃ after, receiveAll avatar known draws s i items = .ok after ∧ after.myId = s.myId ∧
      (∀ id ∈ s.conversations.map Conversation.id, id ∈ after.conversations.map Conversation.id) ∧
      after.seenIncoming = Mealy.final admitItem s.seenIncoming others ∧
      ∀ sender, (after.messages.of sender).map display =
        (s.messages.of sender).map display ++
          ((passing s.seenIncoming others).filter fun item => item.sender = sender).map shown := by
  induction items generalizing s i with
  | nil => exact ⟨s, rfl, rfl, fun _ member => member, rfl, by simp [passing, Mealy.kept]⟩
  | cons item rest ih =>
    obtain ⟨here, later⟩ := List.forall_mem_cons.mp open_
    by_cases own : truthy s.myId = some item.sender
    · have same : receive avatar known s (draws i) item = .ok s := if_pos own
      rw [receiveAll, same, List.filter_cons_of_neg (by simpa using own)]
      exact ih s (i + 1) later
    · have first := receivable_mono (fun _ member => member) (here own) s.messages
      obtain ⟨t, returns, keys⟩ := @receive_ok avatar known s (draws i) item own first
      obtain ⟨myId, appends, ids⟩ := @receive_spec avatar known s (draws i) item own
      rw [returns] at myId appends ids
      change t.myId = s.myId at myId
      rw [first, Bool.and_true] at appends
      rw [receiveAll, List.filter_cons_of_pos (by simpa using own), returns]
      obtain ⟨after, all, myIdAfter, idsAfter, keysAfter, listsAfter⟩ :=
        ih t (i + 1) (by rwa [myId])
      simp only [myId, keys] at myIdAfter keysAfter listsAfter
      refine ⟨after, all, myIdAfter, fun id member => idsAfter id ?_, keysAfter, fun sender => ?_⟩
      · rcases ids with same | ⟨-, new⟩
        · exact same ▸ member
        · exact new ▸ List.mem_cons_of_mem _ member
      · have one := appends.lists sender
        change (t.messages.of sender).map display = _ at one
        rw [listsAfter, one, passing, passing, Mealy.kept, List.append_assoc]
        cases passed : (admitItem s.seenIncoming item).1 with
        | false => simp
        | true => by_cases same : item.sender = sender <;> simp [same]

theorem loadMessages_spec (s : State) (poll : Poll)
    (open_ : ∀ item ∈ poll.items, truthy s.myId ≠ some item.sender →
      receivable avatar s.conversations [] item.sender = true) :
    let others := poll.items.filter fun item => truthy s.myId ≠ some item.sender
    ∃ after, loadMessages avatar s poll.draws poll.result = .ok after ∧ after.myId = s.myId ∧
      (∀ id ∈ s.conversations.map Conversation.id, id ∈ after.conversations.map Conversation.id) ∧
      after.seenIncoming = Mealy.final admitItem s.seenIncoming others ∧
      ∀ sender, (after.messages.of sender).map display =
        (s.messages.of sender).map display ++
          ((passing s.seenIncoming others).filter fun item => item.sender = sender).map shown := by
  rw [Poll.items] at open_ ⊢
  cases result : poll.result with
  | failed | noArray =>
    exact @receiveAll_spec avatar s.conversations poll.draws [] s 0 (List.forall_mem_nil _)
  | items list =>
    rw [result] at open_
    exact receiveAll_spec s.conversations poll.draws list s 0 open_

/-- What a run of polls shows are the items that pass the two checks, if nothing throws. -/
theorem pollAll_spec (s : State) (polls : List Poll)
    (open_ : ∀ item ∈ received s.myId polls,
      receivable avatar s.conversations [] item.sender = true) (sender : String) :
    ((pollAll avatar s polls).messages.of sender).map display =
      (s.messages.of sender).map display ++
        ((passing s.seenIncoming (received s.myId polls)).filter fun item =>
          item.sender = sender).map shown := by
  induction polls generalizing s with
  | nil => simp [pollAll, received, passing, Mealy.kept]
  | cons poll rest ih =>
    have split : received s.myId (poll :: rest) =
        (poll.items.filter fun item => truthy s.myId ≠ some item.sender) ++
          received s.myId rest := by
      rw [received, List.flatMap_cons, List.filter_append, received]
    rw [split] at open_ ⊢
    obtain ⟨here, later⟩ := List.forall_mem_append.mp open_
    obtain ⟨t, returns, myId, ids, keys, lists⟩ := @loadMessages_spec avatar s poll
      fun item member other => here item (List.mem_filter.mpr ⟨member, by simpa using other⟩)
    have behind := ih t (by
      rw [myId]
      exact fun item member => receivable_mono ids (later item member) [])
    rw [myId, keys, lists] at behind
    rw [pollAll, List.foldl_cons, returns, passing, Mealy.kept_append, List.filter_append,
      List.map_append, ← List.append_assoc]
    exact behind

/-- A sender whose mail makes the loop throw: nothing of it has been taken in. -/
def Shut (avatar : String → Option String) (s : State) (sender : String) : Prop :=
  s.messages.lookup sender = none ∧ receivable avatar s.conversations [] sender = false

theorem receivable_of_lookup_none {messages : Messages} {sender : String}
    (none_ : messages.lookup sender = none) (known : List Conversation) :
    receivable avatar known messages sender = receivable avatar known [] sender := by
  rw [receivable, receivable, Messages.inherits, Messages.inherits, none_, List.lookup_nil]

/-- No round of a poll opens it. -/
theorem receive_shut {known : List Conversation} {s : State} {sender : String} (draw : Draw)
    (item : Item) (closed : receivable avatar known [] sender = false)
    (shut : Shut avatar s sender) :
    Shut avatar (storeAfter (receive avatar known s draw item)) sender := by
  by_cases own : truthy s.myId = some item.sender
  · have same : receive avatar known s draw item = .ok s := if_pos own
    rw [same]
    exact shut
  obtain ⟨-, ⟨m, -, after⟩, ids⟩ := @receive_spec avatar known s draw item own
  obtain ⟨none_, unmet⟩ := shut
  constructor
  · rw [after]
    by_cases same : item.sender = sender
    · subst same
      rw [receivable_of_lookup_none none_, closed, Bool.and_false]
      exact none_
    · split
      · rw [Messages.lookup_set, if_neg (Ne.symm same)]
        exact none_
      · exact none_
  · rw [← Bool.not_eq_true, receivable_iff] at unmet ⊢
    rintro ⟨met, own_⟩
    refine unmet ⟨?_, own_⟩
    rcases met with there | picture
    · rcases ids with same | ⟨picture, new⟩
      · exact .inl (same ▸ there)
      · rw [new] at there
        rcases List.mem_cons.mp there with rfl | old
        · exact .inr picture
        · exact .inl old
    · exact .inr picture

theorem receiveAll_shut {known : List Conversation} {sender : String} (draws : Nat → Draw)
    (items : List Item) (closed : receivable avatar known [] sender = false) {s : State} (i : Nat)
    (shut : Shut avatar s sender) :
    Shut avatar (storeAfter (receiveAll avatar known draws s i items)) sender := by
  induction items generalizing s i with
  | nil => exact shut
  | cons item rest ih =>
    have here := receive_shut (draws i) item closed shut
    rw [receiveAll]
    cases round : receive avatar known s (draws i) item with
    | error t =>
      rw [round] at here
      exact here
    | ok t =>
      rw [round] at here
      exact ih (i + 1) here

theorem pollAll_shut {s : State} {sender : String} (polls : List Poll)
    (shut : Shut avatar s sender) : Shut avatar (pollAll avatar s polls) sender := by
  induction polls generalizing s with
  | nil => exact shut
  | cons poll rest ih =>
    refine ih (s := storeAfter (loadMessages avatar s poll.draws poll.result)) ?_
    cases poll.result with
    | failed | noArray => exact shut
    | items list => exact receiveAll_shut poll.draws list shut.2 0 shut

/-- Two new keys in front of others. -/
theorem two_fresh_iff {a b : String} {keys seen : List String} (first : a ∉ seen)
    (second : b ∉ a :: seen) :
    (keys.Nodup ∧ ∀ key ∈ keys, key ∉ b :: a :: seen) ↔
      ([a, b] ++ keys).Nodup ∧ ∀ key ∈ [a, b] ++ keys, key ∉ seen := by
  simp only [List.mem_cons, not_or] at second
  simp only [List.cons_append, List.nil_append, List.nodup_cons, List.forall_mem_cons]
  simp only [List.mem_cons, not_or]
  constructor
  · rintro ⟨nodup, fresh⟩
    refine ⟨⟨⟨Ne.symm second.1, fun again => ?_⟩, fun again => ?_, nodup⟩, first,
      second.2, fun key member => (fresh key member).2.2⟩
    · exact (fresh _ again).2.1 rfl
    · exact (fresh _ again).1 rfl
  · rintro ⟨⟨⟨-, one⟩, two, nodup⟩, -, -, fresh⟩
    refine ⟨nodup, fun key member => ⟨?_, ?_, fresh key member⟩⟩
    · rintro rfl
      exact two member
    · rintro rfl
      exact one member

/-- Only first arrivals pass, and all of them exactly if no two of the keys coincide. -/
theorem passing_first_arrivals {seen : List String} {done items : List Item}
    (known : ∀ item ∈ done, incomingKey item.sender item.text ∈ seen) :
    (passing seen items).Sublist (firsts id done items) ∧
    (passing seen items = firsts id done items ↔
      ((firsts id done items).flatMap dedupeKeys).Nodup ∧
        ∀ key ∈ (firsts id done items).flatMap dedupeKeys, key ∉ seen) := by
  induction items generalizing seen done with
  | nil => simp [passing, Mealy.kept, firsts]
  | cons item rest ih =>
    have kept : passing seen (item :: rest) =
        if (admitItem seen item).1 = true then item :: passing (admitItem seen item).2 rest
        else passing (admitItem seen item).2 rest := by
      rw [passing, Mealy.kept]
      cases (admitItem seen item).1 <;> rfl
    by_cases old : item ∈ done
    · -- an item that came before is dropped by both
      have drop : admitItem seen item = (false, seen) := if_pos (known item old)
      rw [kept, drop, firsts, id_eq, if_pos old]
      exact ih known
    · rw [firsts, id_eq, if_neg old, List.flatMap_cons, kept]
      have late : ∀ list : List Item, list.Sublist (firsts id (item :: done) rest) →
          list ≠ item :: firsts id (item :: done) rest := by
        rintro list shorter rfl
        exact absurd shorter.length_le (by simp)
      by_cases first : incomingKey item.sender item.text ∈ seen
      · have drop : admitItem seen item = (false, seen) := if_pos first
        have shorter := (ih (List.forall_mem_cons.mpr ⟨first, known⟩)).1
        rw [drop]
        refine ⟨shorter.cons item, iff_of_false (late _ shorter) ?_⟩
        rintro ⟨-, fresh⟩
        exact fresh _ (List.mem_append_left _ List.mem_cons_self) first
      · have known' : ∀ earlier ∈ item :: done, incomingKey earlier.sender earlier.text ∈
            incomingKey item.sender item.text :: seen := by
          refine List.forall_mem_cons.mpr ⟨List.mem_cons_self, fun earlier member => ?_⟩
          exact List.mem_cons_of_mem _ (known earlier member)
        by_cases second : incomingKey item.sender (dedupeContent item.text) ∈
            incomingKey item.sender item.text :: seen
        · have drop : admitItem seen item =
              (false, incomingKey item.sender item.text :: seen) := by
            rw [admitItem, if_neg first, if_pos second]
          have shorter := (ih known').1
          rw [drop]
          refine ⟨shorter.cons item, iff_of_false (late _ shorter) ?_⟩
          rintro ⟨nodup, fresh⟩
          rcases List.mem_cons.mp second with same | seenKey
          · rw [dedupeKeys, same] at nodup
            simp at nodup
          · exact fresh _ (List.mem_append_left _
              (List.mem_cons_of_mem _ List.mem_cons_self)) seenKey
        · have pass : admitItem seen item = (true,
              incomingKey item.sender (dedupeContent item.text) ::
                incomingKey item.sender item.text :: seen) := by
            rw [admitItem, if_neg first, if_neg second]
          obtain ⟨sublist, whole⟩ := ih fun earlier member =>
            List.mem_cons_of_mem (incomingKey item.sender (dedupeContent item.text))
              (known' earlier member)
          rw [pass]
          refine ⟨sublist.cons_cons item, ?_⟩
          change item :: passing _ rest = _ ↔ _
          rw [List.cons_inj_right, whole, dedupeKeys]
          exact two_fresh_iff first second

/-- A part of a list without repetitions that agrees with it sender by sender is all of it. -/
theorem eq_of_bySender {part all : List Item} (sublist : part.Sublist all) (nodup : all.Nodup)
    (same : ∀ sender, (part.filter fun item => item.sender = sender).map shown =
      (all.filter fun item => item.sender = sender).map shown) : part = all := by
  have subset : all ⊆ part := by
    intro item member
    have lengths := congrArg List.length (same item.sender)
    rw [List.length_map, List.length_map] at lengths
    have equal := (sublist.filter fun i => i.sender = item.sender).eq_of_length lengths
    have inside : item ∈ part.filter fun i => i.sender = item.sender := by
      rw [equal]
      exact List.mem_filter.mpr ⟨member, by simp⟩
    exact (List.mem_filter.mp inside).1
  exact sublist.eq_of_length_le (List.subperm_of_subset nodup subset).length_le

/-- The two keys of a plain text are one. -/
theorem dedupeKeys_plain {item : Item} (plain : attachmentOf item.text = none) :
    ¬ (dedupeKeys item).Nodup := by
  simp [dedupeKeys, dedupeContent, plain]

/-- The store before it has any mail. -/
def withoutHistory (s : State) : State := { s with messages := [], seenIncoming := [] }

/-- Where every item is shown, no item makes the loop throw. -/
theorem receivable_of_shows {s : State} {polls : List Poll}
    (shows : ShowsOnce avatar (withoutHistory s) polls) :
    ∀ item ∈ received s.myId polls, receivable avatar s.conversations [] item.sender = true := by
  intro item member
  by_contra closed
  have shut : Shut avatar (withoutHistory s) item.sender :=
    ⟨rfl, Bool.eq_false_iff.mpr closed⟩
  have lists := shows polls [] (List.append_nil _).symm item.sender
  rw [Messages.of, (pollAll_shut polls shut).1] at lists
  obtain ⟨front, back, split, first⟩ := List.eq_append_cons_of_mem member
  have here : item ∈ firsts id [] (received s.myId polls) :=
    mem_firsts.mpr ⟨List.not_mem_nil, front, back, split, fun earlier before same =>
      first ((show earlier = item from same) ▸ before)⟩
  have none_ := List.map_eq_nil_iff.mp lists.symm
  exact List.filter_eq_nil_iff.mp none_ item here (by simp)

theorem shows_once_iff_nodup (s : State) (polls : List Poll) :
    ShowsOnce avatar (withoutHistory s) polls ↔
      (∀ item ∈ received s.myId polls, receivable avatar s.conversations [] item.sender = true) ∧
        ((firsts id [] (received s.myId polls)).flatMap dedupeKeys).Nodup := by
  have whole := fun items => @passing_first_arrivals [] [] items (List.forall_mem_nil _)
  have lists : ∀ front, (∀ item ∈ received s.myId front,
      receivable avatar s.conversations [] item.sender = true) → ∀ sender,
      ((pollAll avatar (withoutHistory s) front).messages.of sender).map display =
        ((passing [] (received s.myId front)).filter fun item =>
          item.sender = sender).map shown := by
    intro front open_ sender
    rw [pollAll_spec (withoutHistory s) front open_]
    rfl
  constructor
  · intro shows
    have open_ := receivable_of_shows shows
    have nodup : (firsts id [] (received s.myId polls)).Nodup := by
      have keys : ((firsts id [] (received s.myId polls)).map id).Nodup := firsts_nodup [] _
      rwa [List.map_id] at keys
    have all := eq_of_bySender (whole _).1 nodup fun sender =>
      (lists polls open_ sender).symm.trans (shows polls [] (List.append_nil _).symm sender)
    exact ⟨open_, ((whole _).2.mp all).1⟩
  · rintro ⟨open_, nodup⟩ front back rfl sender
    have split : received s.myId (front ++ back) =
        received s.myId front ++ received s.myId back := by
      rw [received, List.flatMap_append, List.filter_append, received, received]
    rw [split] at open_
    obtain ⟨more, begins⟩ : ∃ more, firsts id [] (received s.myId front ++
        received s.myId back) = firsts id [] (received s.myId front) ++ more := firsts_append ..
    rw [split, begins, List.flatMap_append] at nodup
    have all := (whole (received s.myId front)).2.mpr
      ⟨(List.nodup_append.mp nodup).1, fun _ _ => List.not_mem_nil⟩
    rw [lists front (List.forall_mem_append.mp open_).1, all]
    rfl

end

/-- Every distinct item is shown once exactly if no sender makes the loop throw, all items are
files and no two of the keys on their way coincide. -/
theorem shows_once_iff (avatar : String → Option String) (s : State) (polls : List Poll) :
    ShowsOnce avatar (withoutHistory s) polls ↔
      (∀ item ∈ received s.myId polls, receivable avatar s.conversations [] item.sender = true) ∧
      (∀ item ∈ firsts id [] (received s.myId polls), (attachmentOf item.text).isSome = true) ∧
        ((firsts id [] (received s.myId polls)).flatMap dedupeKeys).Nodup := by
  rw [shows_once_iff_nodup]
  refine and_congr_right fun _ => ⟨fun nodup => ⟨fun item member => ?_, nodup⟩, fun both => both.2⟩
  cases parsed : attachmentOf item.text with
  | some a => rfl
  | none => exact absurd ((List.nodup_flatMap.mp nodup).1 item member) (dedupeKeys_plain parsed)

def emptyStore (myId : Option String) : State := ⟨none, [], [], myId, [], none, []⟩

def pollOf (items : List Item) : Poll := ⟨.items items, fun _ => ⟨"1-a", 1, 1⟩⟩

/-- An envelope around a file of one byte. -/
def oneByteFile (data : String) : String :=
  String.ofList [mark] ++ "ADDATT v2\na.txt\ntext/plain\n1\n" ++ data ++ "\n" ++
    String.ofList [mark] ++ "ENDADDATT"

/-- A plain text is not shown, neither is a second file with the name and the size of the first,
and a sender with an inherited name ends the poll. -/
theorem polls_lose_mail :
    ¬ ShowsOnce some (emptyStore (some "NN-me")) [pollOf [⟨"NN-bob", "hello"⟩]] ∧
    ¬ ShowsOnce some (emptyStore (some "NN-me"))
      [pollOf [⟨"NN-bob", oneByteFile "QQ=="⟩, ⟨"NN-bob", oneByteFile "Qg=="⟩]] ∧
    ¬ ShowsOnce some (emptyStore (some "NN-me"))
      [pollOf [⟨"constructor", oneByteFile "QQ=="⟩, ⟨"NN-bob", oneByteFile "QQ=="⟩]] := by
  refine ⟨fun shows => ?_, fun shows => ?_, fun shows => ?_⟩
  · exact absurd (shows _ [] (List.append_nil _).symm "NN-bob") (by decide +kernel)
  · exact absurd (shows _ [] (List.append_nil _).symm "NN-bob") (by decide +kernel)
  · exact absurd (shows _ [] (List.append_nil _).symm "NN-bob") (by decide +kernel)

end ChatStore
