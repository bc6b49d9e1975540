import AddMessenger.ChatStore
import AddMessenger.ChatPersistence

/-!
# Counting what was not read

`desktop-ui/src/store/chatStore.ts`: the number and the line beside each conversation, over runs
of calls. `loadContacts` and `loadMessages` write a new record over a conversation that exists; a
throw ends their loops.
-/

namespace UnreadCounters

open ChatStore ChatPersistence

structure Contact where
  nullId : String
  fingerprint : String

variable (avatar : String → Option String)

/-- The record that `loadContacts` makes; of two aliases for one id the later one counts. -/
def contactConversation (aliases : List (String × String)) (avatarUrl : String) (now : Int)
    (contact : Contact) : Conversation where
  id := contact.nullId
  name := (truthy (aliases.reverse.lookup contact.nullId)).getD contact.nullId
  fingerprint := some contact.fingerprint
  avatarUrl := some avatarUrl
  lastMessage := some ""
  lastMessageTimestamp := some now
  unreadCount := 0
  isOnline := some false
  isGroup := some false

/-- What the two commands of `loadContacts` return; the aliases by null id. -/
structure Listing where
  contacts : List Contact
  aliases : List (String × String)

def addContact (s : State) (aliases : List (String × String)) (now : Int) (contact : Contact) :
    Except State State :=
  match avatar contact.nullId with
  | none => .error s
  | some url => .ok (addConversation s (contactConversation aliases url now contact))

def addContacts (aliases : List (String × String)) (now : Nat → Int) :
    State → Nat → List Contact → Except State State
  | s, _, [] => .ok s
  | s, i, contact :: rest => do
    let s ← addContact avatar s aliases (now i) contact
    addContacts aliases now s (i + 1) rest

/-- A command that fails changes nothing, and a throw in the loop is caught. -/
def loadContacts (s : State) (now : Nat → Int) : Option Listing → State
  | none => s
  | some listing => storeAfter (addContacts avatar listing.aliases now s 0 listing.contacts)

inductive Call where
  -- the mail that is then fetched is a call of its own
  | setActiveConversation (id : Option String)
  | markAsRead (conversationId : String)
  | addIncomingMessage (item : Item) (draw : Draw)
  | loadMessages (result : ReadResult) (draws : Nat → Draw)
  | loadContacts (listing : Option Listing) (now : Nat → Int)

def perform (s : State) : Call → State
  | .setActiveConversation id => setActiveConversation s id
  | .markAsRead conversationId => markAsRead s conversationId
  | .addIncomingMessage item draw => storeAfter (addIncomingMessage s draw item.sender item.text)
  | .loadMessages result draws => storeAfter (loadMessages avatar s draws result)
  | .loadContacts listing now => loadContacts avatar s now listing

/-- The calls, and the rounds of their loops. -/
inductive Step where
  | select (id : Option String)
  | mark (conversationId : String)
  | incoming (item : Item) (draw : Draw)
  | beginLoop
  | poll (item : Item) (draw : Draw)
  | contact (aliases : List (String × String)) (now : Int) (contact : Contact)

/-- A round of a loop. -/
def Step.isRound : Step → Bool
  | .poll _ _ | .contact _ _ _ => true
  | _ => false

def steps : Call → List Step
  | .setActiveConversation id => [.select id]
  | .markAsRead conversationId => [.mark conversationId]
  | .addIncomingMessage item draw => [.incoming item draw]
  | .loadMessages (.items list) draws =>
    .beginLoop :: list.zipIdx.map fun entry => .poll entry.1 (draws entry.2)
  | .loadMessages _ _ => []
  | .loadContacts none _ => []
  | .loadContacts (some listing) now =>
    .beginLoop :: listing.contacts.zipIdx.map fun entry =>
      .contact listing.aliases (now entry.2) entry.1

structure Session where
  store : State
  -- the conversations from before the loop
  known : List Conversation
  -- a throw has ended the loop
  ended : Bool
  -- what came into each conversation, while it was not active, since it was last marked read
  unseen : String → Nat

def operate (known : List Conversation) (s : State) : Step → Except State State
  | .select id => .ok (setActiveConversation s id)
  | .mark conversationId => .ok (markAsRead s conversationId)
  | .incoming item draw => addIncomingMessage s draw item.sender item.text
  | .beginLoop => .ok s
  | .poll item draw => receive avatar known s draw item
  | .contact aliases now contact => addContact avatar s aliases now contact

/-- The conversation that a step marks as read. -/
def Step.marked : Step → Option String
  | .select id => truthy id
  | .mark conversationId => some conversationId
  | _ => none

/-- The count of a conversation when a step leads from `s` to `t`. -/
def countUnseen (unseen : String → Nat) (s t : State) (marked : Option String) (id : String) :
    Nat :=
  if marked = some id then 0
  else if s.activeConversationId = some id then unseen id
  else unseen id + ((t.messages.of id).length - (s.messages.of id).length)

/-- The rounds behind a throw are left out. -/
def step (σ : Session) (e : Step) : Unit × Session :=
  if σ.ended && e.isRound then ((), σ)
  else
    let after := operate avatar σ.known σ.store e
    ((), { store := storeAfter after
           known := match e with
             | .beginLoop => σ.store.conversations
             | _ => σ.known
           ended := e.isRound && !after.isOk
           unseen := countUnseen σ.unseen σ.store (storeAfter after) e.marked })

def firstSession (myId : Option String) : Session := ⟨emptyStore myId, [], false, fun _ => 0⟩

/-- The line for a message. -/
def describe (m : Message) : String :=
  match m.attachment with
  | some a => attachmentLine a
  | none => m.content

/-- Number and line of one conversation. -/
def ExactAt (messages : Messages) (unseen : String → Nat) (id : String) (unreadCount : Nat)
    (lastMessage : Option String) : Prop :=
  unreadCount = unseen id ∧
    ∀ m, (messages.of id).getLast? = some m → lastMessage = some (describe m)

/-- A property of what is shown, for all conversations. -/
def All (P : String → Nat → Option String → Prop) (s : State) : Prop :=
  ∀ c ∈ s.conversations, P c.id c.unreadCount c.lastMessage

def Exact (σ : Session) : Prop := All (ExactAt σ.store.messages σ.unseen) σ.store

/-- The last message is shown as nothing, or there is none. -/
def BlankLast (σ : Session) (id : String) : Prop :=
  ∀ m, (σ.store.messages.of id).getLast? = some m → describe m = ""

/-- The conversation has been read if its id is empty and active. Any other id is marked as read
when it becomes active. -/
def Settled (σ : Session) (id : String) : Prop :=
  id = "" → σ.store.activeConversationId = some id →
    (∃ c ∈ σ.store.conversations, c.id = id) → σ.unseen id = 0

/-- A record is written over a conversation only if nothing in it is unread and, where no message
comes with it, its last line is empty. -/
def Harmless (σ : Session) : Step → Prop
  | .select _ | .mark _ | .beginLoop => True
  | .incoming item _ =>
    incomingKey item.sender (dedupeContent item.text) ∉ σ.store.seenIncoming →
      Settled σ item.sender
  | .poll item _ =>
    σ.ended = false → truthy σ.store.myId ≠ some item.sender →
      incomingKey item.sender item.text ∉ σ.store.seenIncoming →
        if σ.known.any fun c => c.id = item.sender then
          (admitItem σ.store.seenIncoming item).1 = true → Settled σ item.sender
        else
          (avatar item.sender).isSome = true → σ.unseen item.sender = 0 ∧
            ((admitItem σ.store.seenIncoming item).1 = false → BlankLast σ item.sender)
  | .contact _ _ contact =>
    σ.ended = false → (avatar contact.nullId).isSome = true →
      truthy σ.store.myId ≠ some contact.nullId →
        σ.unseen contact.nullId = 0 ∧ BlankLast σ contact.nullId

section

variable {avatar} {P : String → Nat → Option String → Prop} {s t : State}

theorem truthy_eq_some {id : Option String} {name : String} :
    truthy id = some name ↔ id = some name ∧ name ≠ "" := by
  rw [truthy, Option.filter_eq_some_iff]
  simp

/-- A property of what is shown after the conversations of one id were changed. -/
theorem all_updateConversation (id : String) (f : Conversation → Conversation)
    (same : ∀ c, c.id = id → (f c).id = id) :
    All P (updateConversation s id f) ↔ ∀ c ∈ s.conversations,
      (c.id ≠ id → P c.id c.unreadCount c.lastMessage) ∧
        (c.id = id → P id (f c).unreadCount (f c).lastMessage) := by
  refine List.forall_mem_map.trans (forall₂_congr fun c _ => ?_)
  by_cases here : c.id = id
  · simp [here, same c here]
  · simp [here]

/-- A blank record is what is shown of its id afterwards. -/
theorem all_addConversation {conversation : Conversation}
    (other : truthy s.myId ≠ some conversation.id) (unread : conversation.unreadCount = 0)
    (line : conversation.lastMessage = some "") :
    All P (addConversation s conversation) ↔
      All (fun id n l => id ≠ conversation.id → P id n l) s ∧ P conversation.id 0 (some "") := by
  rw [addConversation, if_neg other]
  split
  · next known =>
    obtain ⟨old, member, here⟩ := List.any_eq_true.mp known
    have merged : ∀ c : Conversation, (c.merge conversation).unreadCount = 0 ∧
        (c.merge conversation).lastMessage = some "" := by
      intro c
      rw [Conversation.merge, unread, line]
      exact ⟨rfl, rfl⟩
    refine (all_updateConversation conversation.id (fun c => c.merge conversation)
      fun _ _ => rfl).trans ?_
    simp only [merged]
    constructor
    · intro holds
      exact ⟨fun c inside => (holds c inside).1, (holds old member).2 (by simpa using here)⟩
    · rintro ⟨others, blank⟩ c inside
      exact ⟨others c inside, fun _ => blank⟩
  · next unknown =>
    have absent : ∀ c ∈ s.conversations, c.id ≠ conversation.id := by
      simpa using unknown
    refine List.forall_mem_cons.trans ?_
    rw [unread, line, and_comm]
    exact and_congr_left fun _ => forall₂_congr fun c member =>
      ⟨fun holds _ => holds, fun holds => holds (absent c member)⟩

theorem addConversation_rest (s : State) (conversation : Conversation) :
    (addConversation s conversation).messages = s.messages ∧
      (addConversation s conversation).activeConversationId = s.activeConversationId := by
  rw [addConversation]
  split
  · exact ⟨rfl, rfl⟩
  · split <;> exact ⟨rfl, rfl⟩

/-- A message that comes in for the first time. -/
theorem addIncomingMessage_fresh {item : Item} (draw : Draw)
    (fresh : incomingKey item.sender (dedupeContent item.text) ∉ s.seenIncoming)
    (own : s.messages.inherits item.sender = false) :
    let after := storeAfter (addIncomingMessage s draw item.sender item.text)
    ∃ m, after.messages = s.messages.set item.sender (s.messages.of item.sender ++ [m]) ∧
      after.activeConversationId = s.activeConversationId ∧
      ∀ P, All P after ↔ All (fun id n l => (id ≠ item.sender → P id n l) ∧
        (id = item.sender → P item.sender
          (if s.activeConversationId = some item.sender then 0 else n + 1)
          (some (describe m)))) s := by
  intro after
  let message : Message :=
    { id := draw.id, content := if (attachmentOf item.text).isSome then "" else item.text,
      timestamp := draw.now, senderId := item.sender, status := .read, ttl := none,
      attachment := attachmentOf item.text }
  simp only [after, addIncomingMessage, if_neg fresh, own]
  exact ⟨message, rfl, rfl, fun P => all_updateConversation item.sender _ fun _ here => here⟩

/-- A message whose append throws leaves only its key. -/
theorem addIncomingMessage_thrown {item : Item} (draw : Draw)
    (fresh : incomingKey item.sender (dedupeContent item.text) ∉ s.seenIncoming)
    (inherits : s.messages.inherits item.sender = true) :
    storeAfter (addIncomingMessage s draw item.sender item.text) =
      { s with seenIncoming :=
          incomingKey item.sender (dedupeContent item.text) :: s.seenIncoming } := by
  simp only [addIncomingMessage, if_neg fresh, inherits]
  rfl

variable {unseen : String → Nat} {marked : Option String} {id : String}

theorem countUnseen_same (notMarked : marked ≠ some id)
    (same : t.messages.of id = s.messages.of id) :
    countUnseen unseen s t marked id = unseen id := by
  rw [countUnseen, if_neg notMarked, same]
  split
  · rfl
  · omega

theorem exactAt_same (notMarked : marked ≠ some id)
    (same : t.messages.of id = s.messages.of id) (n : Nat) (l : Option String) :
    ExactAt t.messages (countUnseen unseen s t marked) id n l ↔
      ExactAt s.messages unseen id n l := by
  rw [ExactAt, ExactAt, countUnseen_same notMarked same, same]

/-- The line is right for a message that was appended; what is left is the number. -/
theorem exactAt_appended {m : Message}
    (appended : t.messages = s.messages.set id (s.messages.of id ++ [m])) (n : Nat) :
    ExactAt t.messages (countUnseen unseen s t none) id n (some (describe m)) ↔
      n = if s.activeConversationId = some id then unseen id else unseen id + 1 := by
  have list : t.messages.of id = s.messages.of id ++ [m] := by
    rw [appended, Messages.of_set, if_pos rfl]
  have count : countUnseen unseen s t none id =
      if s.activeConversationId = some id then unseen id else unseen id + 1 := by
    rw [countUnseen, if_neg (by simp), list, List.length_append, List.length_singleton,
      Nat.add_sub_cancel_left]
  rw [ExactAt, count, list, List.getLast?_concat]
  exact and_iff_left fun last same => by rw [Option.some.inj same]

theorem of_appended {m : Message} {other : String}
    (appended : t.messages = s.messages.set id (s.messages.of id ++ [m])) (ne : other ≠ id) :
    t.messages.of other = s.messages.of other := by
  rw [appended, Messages.of_set, if_neg ne]

/-- What became active was marked as read then, unless its id is empty. -/
def ReadWhileActive (σ : Session) : Prop :=
  ∀ id, truthy σ.store.activeConversationId = some id → σ.unseen id = 0

variable {σ : Session}

/-- Where a step leaves conversations and messages alone. -/
theorem exact_unchanged (exact_ : Exact σ) (conversations : t.conversations = σ.store.conversations)
    (messages : t.messages = σ.store.messages) :
    All (ExactAt t.messages (countUnseen σ.unseen σ.store t none)) t := by
  intro c member
  rw [conversations] at member
  exact (exactAt_same (by simp) (by rw [messages]) _ _).mpr (exact_ c member)

theorem exact_appended (exact_ : Exact σ) (read : ReadWhileActive σ) {item : Item} (draw : Draw)
    (fresh : incomingKey item.sender (dedupeContent item.text) ∉ σ.store.seenIncoming)
    (own : σ.store.messages.inherits item.sender = false) :
    let t := storeAfter (addIncomingMessage σ.store draw item.sender item.text)
    All (ExactAt t.messages (countUnseen σ.unseen σ.store t none)) t ↔ Settled σ item.sender := by
  intro t
  obtain ⟨m, messages, -, all⟩ := addIncomingMessage_fresh draw fresh own
  rw [all]
  constructor
  · intro after _ active known
    obtain ⟨c, member, here⟩ := known
    have number := (exactAt_appended messages _).mp ((after c member).2 here)
    rw [if_pos active, if_pos active] at number
    exact number.symm
  · intro settled c member
    refine ⟨fun ne => ?_, fun here => (exactAt_appended messages _).mpr ?_⟩
    · exact (exactAt_same (by simp) (of_appended messages ne) _ _).mpr (exact_ c member)
    · by_cases active : σ.store.activeConversationId = some item.sender
      · rw [if_pos active, if_pos active]
        by_cases empty : item.sender = ""
        · exact (settled empty active ⟨c, member, here⟩).symm
        · exact (read _ (truthy_eq_some.mpr ⟨active, empty⟩)).symm
      · rw [if_neg active, if_neg active, (exact_ c member).1, here]

theorem ne_empty_of_inherits {messages : Messages} (inherits : messages.inherits id = true) :
    id ≠ "" := by
  rintro rfl
  exact absurd (Bool.and_eq_true_iff.mp inherits).2 (by decide)

theorem exact_incoming (exact_ : Exact σ) (read : ReadWhileActive σ) (item : Item) (draw : Draw) :
    let t := storeAfter (addIncomingMessage σ.store draw item.sender item.text)
    All (ExactAt t.messages (countUnseen σ.unseen σ.store t none)) t ↔
      (incomingKey item.sender (dedupeContent item.text) ∉ σ.store.seenIncoming →
        Settled σ item.sender) := by
  intro t
  by_cases seen : incomingKey item.sender (dedupeContent item.text) ∈ σ.store.seenIncoming
  · have dropped : t = σ.store := congrArg storeAfter (if_pos seen)
    rw [dropped]
    exact iff_of_true (exact_unchanged exact_ rfl rfl) fun unseen => absurd seen unseen
  cases inherits : σ.store.messages.inherits item.sender with
  | true =>
    have thrown : t = _ := addIncomingMessage_thrown draw seen inherits
    rw [thrown]
    refine iff_of_true (exact_unchanged exact_ rfl rfl) fun _ empty => ?_
    exact absurd empty (ne_empty_of_inherits inherits)
  | false => exact (exact_appended exact_ read draw seen inherits).trans (imp_iff_right seen).symm

theorem exact_blank (exact_ : Exact σ) {conversation : Conversation}
    (other : truthy σ.store.myId ≠ some conversation.id) (unread : conversation.unreadCount = 0)
    (line : conversation.lastMessage = some "") :
    let t := addConversation σ.store conversation
    All (ExactAt t.messages (countUnseen σ.unseen σ.store t none)) t ↔
      σ.unseen conversation.id = 0 ∧ BlankLast σ conversation.id := by
  intro t
  have messages : t.messages = σ.store.messages := (addConversation_rest _ _).1
  have same : ∀ id n l, ExactAt t.messages (countUnseen σ.unseen σ.store t none) id n l ↔
      ExactAt σ.store.messages σ.unseen id n l :=
    fun id => exactAt_same (by simp) (by rw [messages])
  rw [all_addConversation other unread line, same, ExactAt]
  constructor
  · rintro ⟨-, none, last⟩
    exact ⟨none.symm, fun m held => (Option.some.inj (last m held)).symm⟩
  · rintro ⟨none, last⟩
    refine ⟨fun c member _ => (same _ _ _).mpr (exact_ c member), none.symm, fun m held => ?_⟩
    rw [last m held]

/-- A message behind a record brings the line with it. -/
theorem exact_blank_appended (exact_ : Exact σ) {item : Item} (draw : Draw)
    {conversation : Conversation} (from_ : conversation.id = item.sender)
    (other : truthy σ.store.myId ≠ some conversation.id) (unread : conversation.unreadCount = 0)
    (line : conversation.lastMessage = some "")
    (fresh : incomingKey item.sender (dedupeContent item.text) ∉
      (addConversation σ.store conversation).seenIncoming)
    (own : (addConversation σ.store conversation).messages.inherits item.sender = false) :
    let t := storeAfter
      (addIncomingMessage (addConversation σ.store conversation) draw item.sender item.text)
    All (ExactAt t.messages (countUnseen σ.unseen σ.store t none)) t ↔
      σ.unseen item.sender = 0 := by
  intro t
  obtain ⟨before, active⟩ := addConversation_rest σ.store conversation
  obtain ⟨m, messages, -, all⟩ := addIncomingMessage_fresh draw fresh own
  rw [before] at messages
  rw [all, all_addConversation other unread line, from_, active]
  have number : ExactAt t.messages (countUnseen σ.unseen σ.store t none) item.sender
      (if σ.store.activeConversationId = some item.sender then 0 else 0 + 1)
      (some (describe m)) ↔ σ.unseen item.sender = 0 := by
    rw [exactAt_appended messages]
    split <;> omega
  constructor
  · rintro ⟨-, -, here⟩
    exact number.mp (here rfl)
  · intro none
    refine ⟨fun c member ne => ⟨fun _ => ?_, fun here => absurd here ne⟩,
      fun ne => absurd rfl ne, fun _ => number.mpr none⟩
    exact (exactAt_same (by simp) (of_appended messages ne) _ _).mpr (exact_ c member)

/-- A record, and whatever becomes of the message behind it. -/
theorem exact_blank_incoming (exact_ : Exact σ) (item : Item) (draw : Draw)
    {conversation : Conversation} (from_ : conversation.id = item.sender)
    (other : truthy σ.store.myId ≠ some conversation.id) (unread : conversation.unreadCount = 0)
    (line : conversation.lastMessage = some "") :
    let t := storeAfter
      (addIncomingMessage (addConversation σ.store conversation) draw item.sender item.text)
    All (ExactAt t.messages (countUnseen σ.unseen σ.store t none)) t ↔
      σ.unseen item.sender = 0 ∧
        (incomingKey item.sender (dedupeContent item.text) ∈ σ.store.seenIncoming →
          BlankLast σ item.sender) := by
  intro t
  obtain ⟨messages, -, keys⟩ := addConversation_frame σ.store conversation
  have blank := exact_blank exact_ other unread line
  rw [from_] at blank
  by_cases seen : incomingKey item.sender (dedupeContent item.text) ∈ σ.store.seenIncoming
  · have dropped : t = addConversation σ.store conversation :=
      congrArg storeAfter (if_pos (keys.symm ▸ seen))
    rw [dropped, imp_iff_right seen]
    exact blank
  have fresh : incomingKey item.sender (dedupeContent item.text) ∉
      (addConversation σ.store conversation).seenIncoming := keys.symm ▸ seen
  cases inherits : (addConversation σ.store conversation).messages.inherits item.sender with
  | true =>
    have thrown : t = _ := addIncomingMessage_thrown draw fresh inherits
    have last : BlankLast σ item.sender := by
      rw [messages] at inherits
      intro m held
      rw [Messages.of_eq_nil_of_inherits inherits] at held
      cases held
    rw [thrown]
    exact blank.trans (and_congr_right fun _ => iff_of_true last fun _ => last)
  | false =>
    refine (exact_blank_appended exact_ draw from_ other unread line fresh inherits).trans ?_
    exact (and_iff_left fun again => absurd again seen).symm

theorem exact_marked (exact_ : Exact σ) (id : String) (active : Option String) :
    let t := markAsRead { σ.store with activeConversationId := active } id
    All (ExactAt t.messages (countUnseen σ.unseen σ.store t (some id))) t := by
  intro t
  refine (all_updateConversation id (fun c => { c with unreadCount := 0 })
    fun _ here => here).mpr fun c member => ?_
  obtain ⟨number, line⟩ := exact_ c member
  refine ⟨fun ne => ?_, fun here => ⟨(if_pos rfl).symm, fun m held => ?_⟩⟩
  · exact (exactAt_same (by simpa using Ne.symm ne) rfl _ _).mpr ⟨number, line⟩
  · exact line m (here ▸ held)

theorem exact_poll (exact_ : Exact σ) (read : ReadWhileActive σ) (item : Item) (draw : Draw)
    (running : σ.ended = false) :
    let t := storeAfter (receive avatar σ.known σ.store draw item)
    All (ExactAt t.messages (countUnseen σ.unseen σ.store t none)) t ↔
      Harmless avatar σ (.poll item draw) := by
  rw [Harmless, receive, imp_iff_right running]
  by_cases own : truthy σ.store.myId = some item.sender
  · rw [if_pos own]
    exact iff_of_true (exact_unchanged exact_ rfl rfl) fun other => absurd own other
  rw [if_neg own]
  by_cases seen : incomingKey item.sender item.text ∈ σ.store.seenIncoming
  · simp only [if_pos seen]
    exact iff_of_true (exact_unchanged exact_ rfl rfl) fun _ unseen => absurd seen unseen
  -- the first key is noted; nothing that is shown depends on it
  let noted : Session := { σ with store := { σ.store with
    seenIncoming := incomingKey item.sender item.text :: σ.store.seenIncoming } }
  have exactNoted : Exact noted := exact_
  have readNoted : ReadWhileActive noted := read
  simp only [if_neg seen, admitItem_fresh seen, decide_eq_true_iff, decide_eq_false_iff_not,
    not_not]
  rw [imp_iff_right own, imp_iff_right seen, ensureConversation]
  by_cases known : (σ.known.any fun c => c.id = item.sender) = true
  · rw [if_pos known, if_pos known]
    exact exact_incoming exactNoted readNoted item draw
  · rw [if_neg known, if_neg known]
    cases avatar item.sender with
    | none => exact iff_of_true (exact_unchanged exact_ rfl rfl) fun drawn => absurd drawn (by simp)
    | some url =>
      rw [Option.isSome_some, imp_iff_right rfl]
      exact exact_blank_incoming exactNoted item draw rfl own rfl rfl

theorem step_left_out {e : Step} (behind : (σ.ended && e.isRound) = true) :
    (step avatar σ e).2 = σ := by
  unfold step
  rw [if_pos behind]

/-- What a step does that is not left out. -/
theorem step_running {e : Step} (running : (σ.ended && e.isRound) = false) :
    let after := operate avatar σ.known σ.store e
    (step avatar σ e).2.store = storeAfter after ∧
      (step avatar σ e).2.unseen = countUnseen σ.unseen σ.store (storeAfter after) e.marked ∧
      (step avatar σ e).2.ended = (e.isRound && !after.isOk) := by
  unfold step
  rw [if_neg (Bool.eq_false_iff.mp running)]
  exact ⟨rfl, rfl, rfl⟩

theorem exact_contact (exact_ : Exact σ) (aliases : List (String × String)) (now : Int)
    (contact : Contact) (running : σ.ended = false) :
    let t := storeAfter (addContact avatar σ.store aliases now contact)
    All (ExactAt t.messages (countUnseen σ.unseen σ.store t none)) t ↔
      Harmless avatar σ (.contact aliases now contact) := by
  rw [Harmless, addContact, imp_iff_right running]
  cases avatar contact.nullId with
  | none => exact iff_of_true (exact_unchanged exact_ rfl rfl) fun drawn => absurd drawn (by simp)
  | some url =>
    rw [Option.isSome_some, imp_iff_right rfl]
    dsimp only [storeAfter]
    by_cases own : truthy σ.store.myId = some contact.nullId
    · have same : addConversation σ.store (contactConversation aliases url now contact) =
          σ.store := if_pos own
      rw [same]
      exact iff_of_true (exact_unchanged exact_ rfl rfl) fun other => absurd own other
    · exact (exact_blank exact_ own rfl rfl).trans (imp_iff_right own).symm

/-- A step keeps all numbers and lines right exactly if it is harmless. -/
theorem exact_step (exact_ : Exact σ) (read : ReadWhileActive σ) (e : Step) :
    Exact (step avatar σ e).2 ↔ Harmless avatar σ e := by
  cases behind : σ.ended && e.isRound with
  | true =>
    rw [step_left_out behind]
    obtain ⟨ended, round⟩ := Bool.and_eq_true_iff.mp behind
    refine iff_of_true exact_ ?_
    cases e with
    | poll | contact => exact fun running => absurd (running.symm.trans ended) (by decide)
    | select | mark | incoming | beginLoop => cases round
  | false =>
    obtain ⟨store, unseen, -⟩ := @step_running avatar σ e behind
    rw [Exact, store, unseen]
    cases e with
    | select id =>
      refine iff_of_true ?_ trivial
      change All (ExactAt (setActiveConversation σ.store id).messages (countUnseen σ.unseen
        σ.store (setActiveConversation σ.store id) (truthy id)))
        (setActiveConversation σ.store id)
      rw [setActiveConversation]
      cases truthy id with
      | none => exact exact_unchanged exact_ rfl rfl
      | some conversationId => exact exact_marked exact_ conversationId id
    | mark conversationId =>
      exact iff_of_true (exact_marked exact_ conversationId σ.store.activeConversationId) trivial
    | incoming item draw => exact exact_incoming exact_ read item draw
    | beginLoop => exact iff_of_true (exact_unchanged exact_ rfl rfl) trivial
    | poll item draw =>
      exact exact_poll exact_ read item draw ((Bool.and_true _).symm.trans behind)
    | contact aliases now contact =>
      exact exact_contact exact_ aliases now contact ((Bool.and_true _).symm.trans behind)

theorem addIncomingMessage_active (s : State) (draw : Draw) (id content : String) :
    (storeAfter (addIncomingMessage s draw id content)).activeConversationId =
      s.activeConversationId := by
  simp only [addIncomingMessage]
  split
  · rfl
  · split <;> rfl

theorem receive_active (known : List Conversation) (s : State) (draw : Draw) (item : Item) :
    (storeAfter (receive avatar known s draw item)).activeConversationId =
      s.activeConversationId := by
  simp only [receive, ensureConversation]
  split
  · rfl
  · split
    · rfl
    · split
      · exact addIncomingMessage_active _ draw item.sender item.text
      · split
        · rfl
        · exact (addIncomingMessage_active _ draw item.sender item.text).trans
            (addConversation_rest _ _).2

/-- Only `setActiveConversation` makes another conversation active. -/
theorem operate_active (known : List Conversation) (s : State) {e : Step}
    (noSelect : ∀ id, e ≠ .select id) :
    (storeAfter (operate avatar known s e)).activeConversationId = s.activeConversationId := by
  cases e with
  | select id => exact absurd rfl (noSelect id)
  | mark conversationId => rfl
  | incoming item draw => exact addIncomingMessage_active s draw item.sender item.text
  | beginLoop => rfl
  | poll item draw => exact receive_active known s draw item
  | contact aliases now contact =>
    simp only [operate, addContact]
    split
    · rfl
    · exact (addConversation_rest _ _).2

theorem setActiveConversation_active (s : State) (id : Option String) :
    (setActiveConversation s id).activeConversationId = id := by
  rw [setActiveConversation]
  split <;> rfl

theorem read_step (read : ReadWhileActive σ) (e : Step) :
    ReadWhileActive (step avatar σ e).2 := by
  cases behind : σ.ended && e.isRound with
  | true =>
    rw [step_left_out behind]
    exact read
  | false =>
    obtain ⟨store, unseen, -⟩ := @step_running avatar σ e behind
    intro id active
    rw [store] at active
    rw [unseen]
    have kept : (∀ other, e ≠ .select other) → countUnseen σ.unseen σ.store
        (storeAfter (operate avatar σ.known σ.store e)) e.marked id = 0 := by
      intro noSelect
      have before : truthy σ.store.activeConversationId = some id := by
        rw [← operate_active σ.known σ.store noSelect]
        exact active
      rw [countUnseen, if_pos (truthy_eq_some.mp before).1]
      split
      · rfl
      · exact read id before
    cases e with
    | select other =>
      have chosen : truthy other = some id := by
        rw [← setActiveConversation_active σ.store other]
        exact active
      exact if_pos chosen
    | mark | incoming | beginLoop | poll | contact => exact kept fun other => nofun

/-- Behind a throw nothing of the loop is left. -/
theorem final_left_out {rounds : List Step} (ended : σ.ended = true)
    (all : ∀ e ∈ rounds, e.isRound = true) : Mealy.final (step avatar) σ rounds = σ := by
  induction rounds with
  | nil => rfl
  | cons e rest ih =>
    obtain ⟨here, later⟩ := List.forall_mem_cons.mp all
    rw [Mealy.final_cons, step_left_out (Bool.and_eq_true_iff.mpr ⟨ended, here⟩)]
    exact ih later

/-- The rest of a loop, behind its first round. -/
theorem final_round {e : Step} {rest : List Step} (running : σ.ended = false)
    (round : e.isRound = true) (all : ∀ later ∈ rest, later.isRound = true)
    {following : State → Except State State}
    (ih : ∀ τ : Session, τ.ended = false → τ.known = σ.known →
      (Mealy.final (step avatar) τ rest).store = storeAfter (following τ.store)) :
    (Mealy.final (step avatar) σ (e :: rest)).store =
      storeAfter (operate avatar σ.known σ.store e >>= following) := by
  have here : (σ.ended && e.isRound) = false := by rw [running, Bool.false_and]
  obtain ⟨store, -, ended⟩ := @step_running avatar σ e here
  rw [Mealy.final_cons]
  cases result : operate avatar σ.known σ.store e with
  | error t =>
    rw [result, round] at ended
    rw [final_left_out ended all, store, result]
    rfl
  | ok t =>
    rw [result, round] at ended
    have known : (step avatar σ e).2.known = σ.known := by
      unfold step
      rw [if_neg (Bool.eq_false_iff.mp here)]
      cases e with
      | beginLoop => cases round
      | _ => rfl
    rw [ih _ ended known, store, result]
    rfl

theorem final_polls (draws : Nat → Draw) (items : List Item) (i : Nat) (σ : Session)
    (running : σ.ended = false) :
    (Mealy.final (step avatar) σ ((items.zipIdx i).map fun entry =>
      .poll entry.1 (draws entry.2))).store =
        storeAfter (receiveAll avatar σ.known draws σ.store i items) := by
  induction items generalizing σ i with
  | nil => rfl
  | cons item rest ih =>
    rw [List.zipIdx_cons, List.map_cons, receiveAll]
    refine final_round running rfl (List.forall_mem_map.mpr fun _ _ => rfl) fun τ run same => ?_
    rw [← same]
    exact ih (i + 1) τ run

theorem final_contacts (aliases : List (String × String)) (now : Nat → Int)
    (contacts : List Contact) (i : Nat) (σ : Session) (running : σ.ended = false) :
    (Mealy.final (step avatar) σ ((contacts.zipIdx i).map fun entry =>
      .contact aliases (now entry.2) entry.1)).store =
        storeAfter (addContacts avatar aliases now σ.store i contacts) := by
  induction contacts generalizing σ i with
  | nil => rfl
  | cons contact rest ih =>
    rw [List.zipIdx_cons, List.map_cons, addContacts]
    refine final_round running rfl (List.forall_mem_map.mpr fun _ _ => rfl) fun τ run _ => ?_
    exact ih (i + 1) τ run

/-- The steps of a call come to what it does. -/
theorem final_steps (σ : Session) (call : Call) :
    (Mealy.final (step avatar) σ (steps call)).store = perform avatar σ.store call := by
  have single : ∀ e : Step, e.isRound = false →
      (step avatar σ e).2.store = storeAfter (operate avatar σ.known σ.store e) :=
    fun e outside => (step_running (by rw [outside, Bool.and_false])).1
  have begun : (step avatar σ .beginLoop).2 = { σ with
      known := σ.store.conversations
      ended := false
      unseen := countUnseen σ.unseen σ.store σ.store none } := by
    unfold step
    rw [if_neg (by simp [Step.isRound])]
    rfl
  cases call with
  | setActiveConversation id => exact single (.select id) rfl
  | markAsRead conversationId => exact single (.mark conversationId) rfl
  | addIncomingMessage item draw => exact single (.incoming item draw) rfl
  | loadMessages result draws =>
    cases result with
    | failed => rfl
    | noArray => rfl
    | items list =>
      rw [steps, Mealy.final_cons, begun]
      exact final_polls draws list 0 _ rfl
  | loadContacts listing now =>
    cases listing with
    | none => rfl
    | some listing =>
      rw [steps, Mealy.final_cons, begun]
      exact final_contacts listing.aliases now listing.contacts 0 _ rfl

theorem final_calls (σ : Session) (calls : List Call) :
    (Mealy.final (step avatar) σ (calls.flatMap steps)).store =
      calls.foldl (perform avatar) σ.store := by
  induction calls generalizing σ with
  | nil => rfl
  | cons call rest ih =>
    rw [List.flatMap_cons, Mealy.final_append, ih, final_steps]
    rfl

end

/-- In every run of calls, what is shown beside the conversations is right after each call and
each round of its loop exactly if no blank record is written over mail that was not read, nor,
without a message behind it, over a last line that is not blank. -/
theorem unread_counters_iff (avatar : String → Option String) (myId : Option String)
    (calls : List Call) :
    ((∀ front back, calls.flatMap steps = front ++ back →
      Exact (Mealy.final (step avatar) (firstSession myId) front)) ↔
        Mealy.Along (step avatar) (Harmless avatar) (firstSession myId)
          (calls.flatMap steps)) ∧
    (Mealy.final (step avatar) (firstSession myId) (calls.flatMap steps)).store =
      calls.foldl (perform avatar) (emptyStore myId) := by
  refine ⟨?_, final_calls (firstSession myId) calls⟩
  have begins : Exact (firstSession myId) ∧ ReadWhileActive (firstSession myId) :=
    ⟨List.forall_mem_nil _, fun _ _ => rfl⟩
  have one : ∀ σ e, Exact σ ∧ ReadWhileActive σ →
      (Exact (step avatar σ e).2 ∧ ReadWhileActive (step avatar σ e).2 ↔ Harmless avatar σ e) :=
    fun σ e both => (and_iff_left (read_step both.2 e)).trans (exact_step both.1 both.2 e)
  have along := Mealy.forall_final_iff_along one begins (calls.flatMap steps)
  rw [← along]
  refine forall₃_congr fun front back split => (and_iff_left ?_).symm
  exact Mealy.final_preserved ReadWhileActive (fun _ e read => read_step read e) begins.2 front

theorem numbers_of_exact {σ : Session} (exact_ : Exact σ) :
    σ.store.conversations.map Conversation.unreadCount =
      σ.store.conversations.map fun c => σ.unseen c.id :=
  List.map_congr_left fun c member => (exact_ c member).1

def bobListed : Call := .loadContacts (some ⟨[⟨"NN-bob", "AB12"⟩], []⟩) fun _ => 1

def helloComes : Call := .addIncomingMessage ⟨"NN-bob", "hello"⟩ ⟨"2-a", 2, 2⟩

def fileAndText : Call :=
  .loadMessages (.items [⟨"NN-bob", oneByteFile "QQ=="⟩, ⟨"NN-bob", "hello"⟩])
    fun _ => ⟨"2-a", 2, 2⟩

/-- Mail is taken for read when the contacts are listed again, or when a poll brings a second
message of someone new. -/
theorem counters_reset :
    ¬ Exact (Mealy.final (step some) (firstSession (some "NN-me"))
      ([bobListed, helloComes, bobListed].flatMap steps)) ∧
    ¬ Exact (Mealy.final (step some) (firstSession (some "NN-me"))
      ([fileAndText].flatMap steps)) := by
  constructor
  · intro exact_
    exact absurd (numbers_of_exact exact_) (by decide +kernel)
  · intro exact_
    exact absurd (numbers_of_exact exact_) (by decide +kernel)

end UnreadCounters
