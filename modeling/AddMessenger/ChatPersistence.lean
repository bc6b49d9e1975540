import AddMessenger.ChatStore

/-!
# The chat store after a restart

`desktop-ui/src/store/chatStore.ts`: which operations write the copy in `localStorage`, and what
`hydrate` makes of it. The JSON of the copy is assumed to be read back as it was written. A call
that throws leaves lists and copy as they are.
-/

namespace ChatPersistence

open ChatStore

inductive Event where
  | setActiveConversation (id : Option String)
  | addConversation (conversation : Conversation)
  | addMessage (conversationId : String) (message : Message)
  | updateMessageStatus (conversationId messageId : String) (status : MessageStatus)
  | markAsRead (conversationId : String)
  | renameAlias (nullId name : String)
  | addIncomingMessage (conversationId content : String) (draw : Draw)
  | clearMessages (conversationId : String)
  | deleteConversation (nullId : String)
  | sendMessage (content : String) (ttl : Option String) (draw : Draw) (hasApi : Bool)
  -- the command behind a send has ended
  | sendSettles (conversationId messageId : String) (delivered : Bool)

def clearMessages (s : State) (conversationId : String) : State :=
  { s with messages := s.messages.filter fun entry => entry.1 ≠ conversationId }

def deleteConversation (s : State) (nullId : String) : State :=
  { s with conversations := s.conversations.filter fun c => c.id ≠ nullId }

/-- `sendMessage` up to the command. -/
def sendMessage (s : State) (content : String) (ttl : Option String) (draw : Draw)
    (hasApi : Bool) : State :=
  match truthy s.activeConversationId with
  | none => s
  | some conversationId =>
    if hasApi = false then s
    else
      let attachment := attachmentOf content
      let message : Message :=
        { id := draw.id, content := if attachment.isSome then "" else content,
          timestamp := draw.now, senderId := "me", status := .sending, ttl, attachment }
      match addMessage s conversationId message with
      | .error s => s
      | .ok s => { s with sends := (conversationId, draw.id) :: s.sends }

def outcome (delivered : Bool) : MessageStatus := if delivered then .sent else .error

def sendSettles (s : State) (conversationId messageId : String) (delivered : Bool) : State :=
  if (conversationId, messageId) ∈ s.sends then
    updateMessageStatus { s with sends := s.sends.erase (conversationId, messageId) }
      conversationId messageId (outcome delivered)
  else s

/-- The mail that `setActiveConversation` then fetches is a poll of its own. -/
def setActiveConversation (s : State) (id : Option String) : State :=
  match truthy id with
  | some conversationId => markAsRead { s with activeConversationId := id } conversationId
  | none => { s with activeConversationId := id }

def step (s : State) : Event → Unit × State
  | .setActiveConversation id => ((), setActiveConversation s id)
  | .addConversation conversation => ((), addConversation s conversation)
  | .addMessage conversationId message => ((), storeAfter (addMessage s conversationId message))
  | .updateMessageStatus conversationId messageId status =>
    ((), updateMessageStatus s conversationId messageId status)
  | .markAsRead conversationId => ((), markAsRead s conversationId)
  | .renameAlias nullId name => ((), renameAlias s nullId name)
  | .addIncomingMessage conversationId content draw =>
    ((), storeAfter (addIncomingMessage s draw conversationId content))
  | .clearMessages conversationId => ((), clearMessages s conversationId)
  | .deleteConversation nullId => ((), deleteConversation s nullId)
  | .sendMessage content ttl draw hasApi => ((), sendMessage s content ttl draw hasApi)
  | .sendSettles conversationId messageId delivered =>
    ((), sendSettles s conversationId messageId delivered)

/-- A conversation without a time gets that of the restart. -/
def repair (now : Int) (c : Conversation) : Conversation :=
  { c with lastMessageTimestamp := some (c.lastMessageTimestamp.getD now) }

/-- The keys of the mail that the copy has. -/
def seenKeys (messages : Messages) : List String :=
  messages.flatMap fun (_, list) =>
    (list.filter fun m => m.senderId ≠ "me").map fun m =>
      incomingKey m.senderId (match m.attachment with
        | some a => attachmentKey a
        | none => m.content)

def hydrate (s : State) (now : Int) : State :=
  match s.localStorage with
  | none => s
  | some saved =>
    { s with
      conversations := saved.conversations.map (repair now)
      messages := saved.messages
      seenIncoming := seenKeys saved.messages ++ s.seenIncoming }

/-- The store of a new session on the same `localStorage`. -/
def restart (s : State) : State := { emptyStore none with localStorage := s.localStorage }

/-- What the user sees comes back, but for the bytes of files. -/
def Survives (s : State) : Prop := ∀ now,
  (hydrate (restart s) now).conversations = s.conversations ∧
    ∀ id, (hydrate (restart s) now).messages.of id = (s.messages.of id).map sanitize

/-- A session begins with nothing on either side. -/
def firstStart (myId activeConversationId : Option String) : State :=
  { emptyStore myId with activeConversationId }

/-- The operation writes the copy, or leaves what the user sees as it is. A conversation has to
come with a time, or be known. -/
def Spares (s : State) : Event → Prop
  | .setActiveConversation id => ∀ c ∈ s.conversations, truthy id = some c.id → c.unreadCount = 0
  | .addConversation conversation =>
    truthy s.myId = some conversation.id ∨ conversation.lastMessageTimestamp.isSome = true ∨
      ∃ c ∈ s.conversations, c.id = conversation.id
  | .addMessage _ _ | .addIncomingMessage _ _ _ | .sendMessage _ _ _ _ => True
  | .updateMessageStatus conversationId messageId status =>
    ∀ m ∈ s.messages.of conversationId, m.id = messageId → m.status = status
  | .markAsRead conversationId =>
    ∀ c ∈ s.conversations, c.id = conversationId → c.unreadCount = 0
  | .renameAlias nullId name => ∀ c ∈ s.conversations, c.id = nullId → c.name = name
  | .clearMessages conversationId => s.messages.of conversationId = []
  | .deleteConversation nullId => ∀ c ∈ s.conversations, c.id ≠ nullId
  | .sendSettles conversationId messageId delivered =>
    (conversationId, messageId) ∈ s.sends →
      ∀ m ∈ s.messages.of conversationId, m.id = messageId → m.status = outcome delivered

section

variable {s t : State}

theorem of_map (f : Message → Message) (messages : Messages) (id : String) :
    Messages.of (messages.map fun (name, list) => (name, list.map f)) id =
      (messages.of id).map f := by
  induction messages with
  | nil => rfl
  | cons entry rest ih =>
    obtain ⟨name, list⟩ := entry
    rw [List.map_cons, Messages.of_cons, Messages.of_cons, ih]
    split <;> rfl

theorem of_filter (messages : Messages) (id other : String) :
    Messages.of (messages.filter fun entry => entry.1 ≠ id) other =
      if other = id then [] else messages.of other := by
  induction messages with
  | nil => simp [Messages.of]
  | cons entry rest ih =>
    obtain ⟨name, list⟩ := entry
    by_cases here : name = id
    · rw [List.filter_cons_of_neg (by simpa using here), ih, Messages.of_cons, here]
      split <;> rfl
    · rw [List.filter_cons_of_pos (by simpa using here), Messages.of_cons, Messages.of_cons, ih]
      by_cases same : other = name
      · rw [if_pos same, if_pos same, if_neg (same ▸ here)]
      · rw [if_neg same, if_neg same]

theorem repair_eq_self_iff (c : Conversation) :
    (∀ now, repair now c = c) ↔ c.lastMessageTimestamp.isSome = true := by
  constructor
  · intro same
    have time := congrArg Conversation.lastMessageTimestamp (same 0)
    rw [← time]
    rfl
  · intro timed now
    obtain ⟨time, held⟩ := Option.isSome_iff_exists.mp timed
    rw [repair, held, Option.getD_some, ← held]

/-- What an operation that writes the copy leaves. -/
theorem survives_persist (s : State) :
    Survives (persist s) ↔ ∀ c ∈ s.conversations, c.lastMessageTimestamp.isSome = true := by
  have messages : ∀ id, Messages.of
      (s.messages.map fun (name, list) => (name, list.map sanitize)) id =
        (s.messages.of id).map sanitize := of_map sanitize s.messages
  constructor
  · intro survives c member
    refine (repair_eq_self_iff c).mp fun now => ?_
    have lists : s.conversations.map (repair now) = s.conversations.map id :=
      (survives now).1.trans (List.map_id _).symm
    exact List.map_inj_left.mp lists c member
  · intro timed now
    refine ⟨?_, messages⟩
    change s.conversations.map (repair now) = s.conversations
    exact (List.map_congr_left fun c member =>
      (repair_eq_self_iff c).mpr (timed c member) now).trans (List.map_id _)

/-- What an operation that does not write the copy leaves. -/
theorem survives_unwritten (survives : Survives s) (same : t.localStorage = s.localStorage) :
    Survives t ↔ t.conversations = s.conversations ∧
      ∀ id, (t.messages.of id).map sanitize = (s.messages.of id).map sanitize := by
  have restored : restart t = restart s := by rw [restart, restart, same]
  constructor
  · intro kept
    refine ⟨?_, fun id => ?_⟩
    · rw [← (kept 0).1, ← (survives 0).1, restored]
    · rw [← (kept 0).2 id, ← (survives 0).2 id, restored]
  · rintro ⟨conversations, messages⟩ now
    rw [restored, conversations]
    exact ⟨(survives now).1, fun id => ((survives now).2 id).trans (messages id).symm⟩

/-- All conversations of a surviving state have a time. -/
theorem survives_timed (survives : Survives s) :
    ∀ c ∈ s.conversations, c.lastMessageTimestamp.isSome = true := by
  rw [← (survives 0).1]
  rw [hydrate]
  split
  · intro c member
    cases member
  · intro c member
    obtain ⟨old, -, rfl⟩ := List.mem_map.mp member
    rfl

theorem survives_updateConversation (survives : Survives s) (id : String)
    (f : Conversation → Conversation) :
    Survives (updateConversation s id f) ↔ ∀ c ∈ s.conversations, c.id = id → f c = c := by
  rw [survives_unwritten survives (t := updateConversation s id f) rfl]
  have lists : (updateConversation s id f).conversations = s.conversations ↔
      ∀ c ∈ s.conversations, (if c.id = id then f c else c) = c := by
    conv_lhs => rw [← List.map_id s.conversations]
    exact List.map_inj_left
  rw [lists]
  constructor
  · rintro ⟨same, -⟩ c member here
    have kept := same c member
    rwa [if_pos here] at kept
  · intro same
    refine ⟨fun c member => ?_, fun _ => rfl⟩
    split
    · next here => exact same c member here
    · rfl

theorem survives_markAsRead (survives : Survives s) (conversationId : String) :
    Survives (markAsRead s conversationId) ↔
      ∀ c ∈ s.conversations, c.id = conversationId → c.unreadCount = 0 := by
  have one : ∀ c : Conversation, { c with unreadCount := 0 } = c ↔ c.unreadCount = 0 := by
    intro c
    constructor
    · intro same
      exact (congrArg Conversation.unreadCount same).symm
    · intro zero
      rw [← zero]
  rw [markAsRead, survives_updateConversation survives]
  simp only [one]

theorem survives_renameAlias (survives : Survives s) (nullId name : String) :
    Survives (renameAlias s nullId name) ↔
      ∀ c ∈ s.conversations, c.id = nullId → c.name = name := by
  have one : ∀ c : Conversation, { c with name } = c ↔ c.name = name := by
    intro c
    constructor
    · intro same
      exact (congrArg Conversation.name same).symm
    · intro already
      rw [← already]
  rw [renameAlias, survives_updateConversation survives]
  simp only [one]

theorem timed_update (timed : ∀ c ∈ s.conversations, c.lastMessageTimestamp.isSome = true)
    (id : String) {f : Conversation → Conversation}
    (keeps : ∀ c, c.lastMessageTimestamp.isSome = true →
      (f c).lastMessageTimestamp.isSome = true) :
    ∀ c ∈ (updateConversation s id f).conversations, c.lastMessageTimestamp.isSome = true := by
  intro c member
  obtain ⟨old, inside, rfl⟩ := List.mem_map.mp member
  split
  · exact keeps old (timed old inside)
  · exact timed old inside

theorem survives_addConversation (survives : Survives s) (conversation : Conversation) :
    Survives (addConversation s conversation) ↔ Spares s (.addConversation conversation) := by
  have timed := survives_timed survives
  rw [addConversation, Spares]
  split
  · next own => exact iff_of_true survives (.inl own)
  · next other =>
    split
    · next known =>
      obtain ⟨old, member, here⟩ := List.any_eq_true.mp known
      refine iff_of_true ((survives_persist _).mpr ?_)
        (.inr (.inr ⟨old, member, by simpa using here⟩))
      refine timed_update timed conversation.id fun c held => ?_
      rw [Conversation.merge]
      cases conversation.lastMessageTimestamp with
      | none => exact held
      | some time => rfl
    · next unknown =>
      rw [survives_persist]
      have absent : ¬ ∃ c ∈ s.conversations, c.id = conversation.id := by
        simpa using unknown
      simp only [other, absent, false_or, or_false, List.forall_mem_cons]
      exact and_iff_left timed

theorem survives_addMessage (survives : Survives s) (conversationId : String)
    (message : Message) : Survives (storeAfter (addMessage s conversationId message)) := by
  rw [addMessage]
  split
  · exact survives
  · refine (survives_persist _).mpr ?_
    exact timed_update (survives_timed survives) conversationId fun _ _ => rfl

theorem survives_addIncomingMessage (survives : Survives s) (draw : Draw)
    (conversationId content : String) :
    Survives (storeAfter (addIncomingMessage s draw conversationId content)) := by
  simp only [addIncomingMessage]
  split
  · exact survives
  · split
    · exact survives
    · refine (survives_persist _).mpr ?_
      exact timed_update (survives_timed survives) conversationId fun _ _ => rfl

theorem survives_updateMessageStatus (survives : Survives s) (conversationId messageId : String)
    (status : MessageStatus) :
    Survives (updateMessageStatus s conversationId messageId status) ↔
      ∀ m ∈ s.messages.of conversationId, m.id = messageId → m.status = status := by
  obtain ⟨conversations, unwritten⟩ :=
    updateMessageStatus_frame s conversationId messageId status
  rw [survives_unwritten survives unwritten]
  -- blanking a file and setting a status do not meet
  have one : ∀ m : Message, sanitize (if m.id = messageId then { m with status } else m) =
      sanitize m ↔ (m.id = messageId → m.status = status) := by
    intro m
    by_cases here : m.id = messageId
    · rw [if_pos here]
      constructor
      · intro same _
        exact (congrArg Message.status same).symm
      · intro already
        rw [← already here]
    · rw [if_neg here]
      exact iff_of_true rfl fun this => absurd this here
  have lists : ∀ id, ((updateMessageStatus s conversationId messageId status).messages.of id).map
      sanitize = (s.messages.of id).map sanitize ↔
        (id = conversationId → ∀ m ∈ s.messages.of conversationId, m.id = messageId →
          m.status = status) := by
    intro id
    rw [of_updateMessageStatus]
    by_cases here : id = conversationId
    · subst here
      rw [if_pos rfl, List.map_map, List.map_inj_left]
      simp only [Function.comp, one, forall_const]
    · rw [if_neg here]
      exact iff_of_true rfl fun this => absurd this here
  simp only [lists]
  constructor
  · rintro ⟨-, same⟩
    exact same conversationId rfl
  · intro same
    exact ⟨conversations, fun _ _ => same⟩

theorem survives_clearMessages (survives : Survives s) (conversationId : String) :
    Survives (clearMessages s conversationId) ↔ s.messages.of conversationId = [] := by
  rw [survives_unwritten survives (t := clearMessages s conversationId) rfl]
  simp only [clearMessages, of_filter]
  constructor
  · rintro ⟨-, same⟩
    have emptied := same conversationId
    rw [if_pos rfl, List.map_nil] at emptied
    exact List.map_eq_nil_iff.mp emptied.symm
  · intro none
    refine ⟨trivial, fun id => ?_⟩
    split
    · next here => rw [here, none]
    · rfl

theorem survives_deleteConversation (survives : Survives s) (nullId : String) :
    Survives (deleteConversation s nullId) ↔ ∀ c ∈ s.conversations, c.id ≠ nullId := by
  rw [survives_unwritten survives (t := deleteConversation s nullId) rfl]
  have lists : (deleteConversation s nullId).conversations = s.conversations ↔
      ∀ c ∈ s.conversations, decide (c.id ≠ nullId) = true := List.filter_eq_self
  rw [lists]
  simp only [decide_eq_true_eq]
  exact and_iff_left fun _ => rfl

/-- An operation keeps what survives exactly if it spares it. -/
theorem survives_step (survives : Survives s) (e : Event) :
    Survives (step s e).2 ↔ Spares s e := by
  cases e with
  | setActiveConversation id =>
    change Survives (setActiveConversation s id) ↔ _
    rw [setActiveConversation, Spares]
    cases active : truthy id with
    | none => exact iff_of_true survives fun c _ here => by cases here
    | some conversationId =>
      have moved : Survives { s with activeConversationId := id } := survives
      refine (survives_markAsRead moved conversationId).trans ?_
      simp only [Option.some.injEq, eq_comm]
  | addConversation conversation => exact survives_addConversation survives conversation
  | addMessage conversationId message =>
    exact iff_of_true (survives_addMessage survives conversationId message) trivial
  | updateMessageStatus conversationId messageId status =>
    exact survives_updateMessageStatus survives conversationId messageId status
  | markAsRead conversationId => exact survives_markAsRead survives conversationId
  | renameAlias nullId name => exact survives_renameAlias survives nullId name
  | addIncomingMessage conversationId content draw =>
    exact iff_of_true (survives_addIncomingMessage survives draw conversationId content) trivial
  | clearMessages conversationId => exact survives_clearMessages survives conversationId
  | deleteConversation nullId => exact survives_deleteConversation survives nullId
  | sendMessage content ttl draw hasApi =>
    refine iff_of_true ?_ trivial
    change Survives (sendMessage s content ttl draw hasApi)
    rw [sendMessage]
    split
    · exact survives
    · split
      · exact survives
      · next conversationId _ _ =>
        have kept := survives_addMessage survives conversationId
          { id := draw.id, content := if (attachmentOf content).isSome then "" else content,
            timestamp := draw.now, senderId := "me", status := .sending, ttl,
            attachment := attachmentOf content }
        dsimp only
        split
        · next t thrown =>
          rw [thrown] at kept
          exact kept
        · next t added =>
          rw [added] at kept
          exact kept
  | sendSettles conversationId messageId delivered =>
    change Survives (sendSettles s conversationId messageId delivered) ↔ _
    rw [sendSettles, Spares]
    split
    · next pending =>
      refine (survives_updateMessageStatus
        (s := { s with sends := s.sends.erase (conversationId, messageId) }) survives
        conversationId messageId (outcome delivered)).trans ?_
      exact ⟨fun same _ => same, fun same => same pending⟩
    · next settled => exact iff_of_true survives fun pending => absurd pending settled

end

/-- What the user sees survives a restart after any operation of a session exactly if each
operation writes the copy or changes nothing that is seen. -/
theorem history_survives_iff (myId activeConversationId : Option String) (run : List Event) :
    (∀ front back, run = front ++ back →
      Survives (Mealy.final step (firstStart myId activeConversationId) front)) ↔
      Mealy.Along step Spares (firstStart myId activeConversationId) run := by
  have begins : Survives (firstStart myId activeConversationId) := fun _ => ⟨rfl, fun _ => rfl⟩
  have one : ∀ s e, Survives s → (Survives (step s e).2 ↔ Spares s e) :=
    fun s e survives => survives_step survives e
  have along := Mealy.forall_final_iff_along one begins run
  exact along

def hello : Message := ⟨"1", "hello", 5, .read, "NN-bob", none, none⟩

def bob : Conversation :=
  ⟨"NN-bob", "Bob", none, none, some "", some 5, 0, some false, some false⟩

def sentHello : List Event :=
  [.addConversation bob, .sendMessage "hello" none ⟨"6", 6, 6⟩ true,
    .sendSettles "NN-bob" "6" true]

/-- Cleared messages and a deleted conversation come back, and a message that was delivered is
shown as sending. -/
theorem history_comes_back :
    ¬ Survives (Mealy.final step (firstStart none none)
      [.addMessage "NN-bob" hello, .clearMessages "NN-bob"]) ∧
    ¬ Survives (Mealy.final step (firstStart none none)
      [.addConversation bob, .deleteConversation "NN-bob"]) ∧
    ¬ Survives (Mealy.final step (firstStart none (some "NN-bob")) sentHello) ∧
    ((hydrate (restart (Mealy.final step (firstStart none (some "NN-bob")) sentHello))
      9).messages.of "NN-bob").map Message.status = [.sending] := by
  refine ⟨?_, ?_, ?_, by decide +kernel⟩
  · intro survives
    exact absurd ((survives 9).2 "NN-bob") (by decide +kernel)
  · intro survives
    exact absurd (survives 9).1 (by decide +kernel)
  · intro survives
    exact absurd ((survives 9).2 "NN-bob") (by decide +kernel)

end ChatPersistence
