import AddMessenger.ChatPersistence

/-!
# What a send comes to

`sendMessage` and `updateMessageStatus` in `desktop-ui/src/store/chatStore.ts`, with several sends
under way: a message is found again by the clock reading that is its id.
-/

namespace SendStatus

open ChatStore ChatPersistence

/-- A call of `sendMessage`, and the place of its message in the conversation. -/
structure Flight where
  conversationId : String
  messageId : String
  position : Nat
  -- what the call has come to
  status : MessageStatus

def Flight.place (f : Flight) : String × Nat := (f.conversationId, f.position)

structure Sending where
  store : State
  flights : List Flight

inductive Event where
  | setActiveConversation (id : Option String)
  | sendMessage (content : String) (ttl : Option String) (clock : Nat) (now : Int)
      (hasApi : Bool)
  -- the command of a call ends
  | settle (flight : Nat) (delivered : Bool)

/-- The conversation that a message goes to, unless its append throws. -/
def target (s : State) (hasApi : Bool) : Option String :=
  (truthy s.activeConversationId).filter fun id => hasApi && !s.messages.inherits id

def Sending.pending (σ : Sending) (flight : Nat) : Option Flight :=
  σ.flights[flight]?.filter fun f => f.status = .sending

def launched (s : State) (clock : Nat) (hasApi : Bool) : Option Flight :=
  (target s hasApi).map fun id => ⟨id, toString clock, (s.messages.of id).length, .sending⟩

def step (σ : Sending) : Event → Unit × Sending
  | .setActiveConversation id => ((), { σ with store := setActiveConversation σ.store id })
  | .sendMessage content ttl clock now hasApi =>
    ((), { store := sendMessage σ.store content ttl ⟨toString clock, now, now⟩ hasApi
           flights := σ.flights ++ (launched σ.store clock hasApi).toList })
  | .settle flight delivered =>
    match σ.pending flight with
    | none => ((), σ)
    | some f =>
      ((), { store := updateMessageStatus σ.store f.conversationId f.messageId
               (outcome delivered)
             flights := σ.flights.set flight { f with status := outcome delivered } })

def messageAt (s : State) (place : String × Nat) : Option Message :=
  (s.messages.of place.1)[place.2]?

/-- Each message has the status of its own send. -/
def OwnStatus (σ : Sending) : Prop :=
  ∀ f ∈ σ.flights, (messageAt σ.store f.place).map Message.status = some f.status

/-- The place of the message whose send ends. -/
def Sending.settled (σ : Sending) : Event → Option (String × Nat)
  | .settle flight _ => (σ.pending flight).map Flight.place
  | _ => none

/-- No other message changes its status. -/
def SparesOthers (σ : Sending) (e : Event) : Prop :=
  ∀ place m, messageAt σ.store place = some m → σ.settled e ≠ some place →
    (messageAt (step σ e).2.store place).map Message.status = some m.status

/-- Any other message of the conversation with the id of the one whose send ends has the status
already that this one gets. -/
def Harmless (σ : Sending) : Event → Prop
  | .settle flight delivered =>
    ∀ f ∈ σ.pending flight, ∀ i m, messageAt σ.store (f.conversationId, i) = some m →
      i ≠ f.position → m.id = f.messageId → m.status = outcome delivered
  | _ => True

/-- Each call has a place of its own, where its message is. -/
structure Tracked (σ : Sending) : Prop where
  placed : ∀ f ∈ σ.flights, ∃ m, messageAt σ.store f.place = some m ∧ m.id = f.messageId
  distinct : (σ.flights.map Flight.place).Nodup

theorem setActiveConversation_messages (s : State) (id : Option String) :
    (setActiveConversation s id).messages = s.messages := by
  rw [setActiveConversation]
  split <;> rfl

/-- What an update makes of a message. -/
theorem messageAt_update {s : State} {place : String × Nat} {m : Message}
    (conversationId messageId : String) (status : MessageStatus)
    (there : messageAt s place = some m) :
    ∃ after, messageAt (updateMessageStatus s conversationId messageId status) place =
        some after ∧ after.id = m.id ∧
      after.status =
        if place.1 = conversationId ∧ m.id = messageId then status else m.status := by
  rw [messageAt] at there
  rw [messageAt, of_updateMessageStatus]
  by_cases here : place.1 = conversationId
  · rw [if_pos here, List.getElem?_map, ← here, there]
    by_cases named : m.id = messageId
    · exact ⟨{ m with status }, congrArg some (if_pos named), rfl,
        (if_pos ⟨rfl, named⟩).symm⟩
    · exact ⟨m, congrArg some (if_neg named), rfl, (if_neg fun both => named both.2).symm⟩
  · rw [if_neg here]
    exact ⟨m, there, rfl, (if_neg fun both => here both.1).symm⟩

/-- An update leaves all ids. -/
theorem messageAt_update_id (s : State) (conversationId messageId : String)
    (status : MessageStatus) (place : String × Nat) :
    (messageAt (updateMessageStatus s conversationId messageId status) place).map Message.id =
      (messageAt s place).map Message.id := by
  cases there : messageAt s place with
  | some m =>
    obtain ⟨after, held, same, -⟩ := messageAt_update conversationId messageId status there
    rw [held, Option.map_some, Option.map_some, same]
  | none =>
    rw [messageAt] at there ⊢
    rw [of_updateMessageStatus]
    by_cases here : place.1 = conversationId
    · rw [if_pos here, List.getElem?_map, ← here, there]
      rfl
    · rw [if_neg here, there]

/-- A message that is sent comes to the end of its conversation. -/
theorem sendMessage_spec (s : State) (content : String) (ttl : Option String) (draw : Draw)
    (hasApi : Bool) :
    (target s hasApi = none ∧ sendMessage s content ttl draw hasApi = s) ∨
    ∃ id m, target s hasApi = some id ∧ m.id = draw.id ∧ m.status = .sending ∧
      (sendMessage s content ttl draw hasApi).messages =
        s.messages.set id (s.messages.of id ++ [m]) := by
  rw [sendMessage, target]
  cases truthy s.activeConversationId with
  | none => exact .inl ⟨rfl, rfl⟩
  | some id =>
    cases hasApi with
    | false => exact .inl ⟨rfl, rfl⟩
    | true =>
      simp only [addMessage]
      cases inherits : s.messages.inherits id with
      | true => exact .inl ⟨by simp [inherits], rfl⟩
      | false => exact .inr ⟨id, _, by simp [inherits], rfl, rfl, rfl⟩

theorem messageAt_append {s t : State} {id : String} {m : Message}
    (appended : t.messages = s.messages.set id (s.messages.of id ++ [m])) (place : String × Nat) :
    messageAt t place =
      if place = (id, (s.messages.of id).length) then some m else messageAt s place := by
  obtain ⟨other, i⟩ := place
  rw [messageAt, messageAt, appended, Messages.of_set]
  by_cases here : other = id
  · subst here
    rw [if_pos rfl]
    rcases lt_trichotomy i (s.messages.of other).length with before | rfl | behind
    · rw [if_neg (by simp [Nat.ne_of_lt before]), List.getElem?_append_left before]
    · rw [if_pos rfl, List.getElem?_concat_length]
    · have length : (s.messages.of other ++ [m]).length = (s.messages.of other).length + 1 :=
        List.length_append
      rw [if_neg (by simp [Nat.ne_of_gt behind]), List.getElem?_eq_none (by omega),
        List.getElem?_eq_none (Nat.le_of_lt behind)]
  · rw [if_neg here, if_neg (by simp [here])]

/-- What is there stays where it is. -/
theorem messageAt_of_append {s t : State} {id : String} {m old : Message}
    (appended : t.messages = s.messages.set id (s.messages.of id ++ [m])) {place : String × Nat}
    (there : messageAt s place = some old) : messageAt t place = some old := by
  rw [messageAt_append appended, if_neg, there]
  rintro rfl
  rw [messageAt, List.getElem?_eq_none le_rfl] at there
  cases there

section

variable {σ : Sending}

theorem pending_spec {flight : Nat} {f : Flight} (pending : σ.pending flight = some f) :
    σ.flights[flight]? = some f ∧ f.status = .sending := by
  obtain ⟨found, sending⟩ := Option.filter_eq_some_iff.mp pending
  exact ⟨found, by simpa using sending⟩

theorem mem_of_pending {flight : Nat} {f : Flight} (pending : σ.pending flight = some f) :
    f ∈ σ.flights :=
  List.mem_of_getElem? (pending_spec pending).1

theorem step_not_pending {flight : Nat} (delivered : Bool)
    (pending : σ.pending flight = none) : (step σ (.settle flight delivered)).2 = σ := by
  rw [step, pending]

theorem step_pending {flight : Nat} {f : Flight} (delivered : Bool)
    (pending : σ.pending flight = some f) :
    (step σ (.settle flight delivered)).2 =
      ⟨updateMessageStatus σ.store f.conversationId f.messageId (outcome delivered),
        σ.flights.set flight { f with status := outcome delivered }⟩ := by
  rw [step, pending]

/-- The places of the calls, when one of them ends. -/
theorem places_set {flights : List Flight} {flight : Nat} {f : Flight} (status : MessageStatus)
    (found : flights[flight]? = some f) :
    (flights.set flight { f with status }).map Flight.place = flights.map Flight.place := by
  have there : (flights.map Flight.place)[flight]? = some f.place := by
    rw [List.getElem?_map, found]
    rfl
  obtain ⟨inside, same⟩ := List.getElem?_eq_some_iff.mp there
  rw [List.map_set]
  change (flights.map Flight.place).set flight f.place = _
  rw [← same]
  exact List.set_getElem_self inside

/-- A message that is sent takes a place behind all others. -/
theorem tracked_launched {s : State} {flights : List Flight} {clock : Nat} {hasApi : Bool}
    (tracked : Tracked ⟨s, flights⟩) (content : String) (ttl : Option String) (draw : Draw)
    (drawn : draw.id = toString clock) :
    Tracked ⟨sendMessage s content ttl draw hasApi,
      flights ++ (launched s clock hasApi).toList⟩ := by
  rcases sendMessage_spec s content ttl draw hasApi with
    ⟨none, same⟩ | ⟨id, m, goes, named, -, appended⟩
  · rw [same, launched, none, Option.map_none, Option.toList_none, List.append_nil]
    exact tracked
  · rw [launched, goes, Option.map_some, Option.toList_some]
    constructor
    · refine List.forall_mem_append.mpr ⟨fun f member => ?_, List.forall_mem_singleton.mpr ?_⟩
      · obtain ⟨old, there, same⟩ := tracked.placed f member
        exact ⟨old, messageAt_of_append appended there, same⟩
      · exact ⟨m, (messageAt_append appended _).trans (if_pos rfl), named.trans drawn⟩
    · rw [List.map_append, List.map_singleton]
      refine List.nodup_append.mpr ⟨tracked.distinct, List.nodup_singleton _, ?_⟩
      rintro place earlier last new rfl
      obtain ⟨f, member, here⟩ := List.mem_map.mp earlier
      obtain ⟨old, there, -⟩ := tracked.placed f member
      -- the new place is behind all messages
      rw [here, List.mem_singleton.mp new, messageAt, Flight.place,
        List.getElem?_eq_none le_rfl] at there
      cases there

theorem tracked_step (tracked : Tracked σ) (e : Event) : Tracked (step σ e).2 := by
  cases e with
  | setActiveConversation id =>
    refine ⟨fun f member => ?_, tracked.distinct⟩
    change ∃ m, messageAt (setActiveConversation σ.store id) f.place = some m ∧ _
    rw [messageAt, setActiveConversation_messages]
    exact tracked.placed f member
  | sendMessage content ttl clock now hasApi =>
    exact tracked_launched tracked content ttl _ rfl
  | settle flight delivered =>
    cases pending : σ.pending flight with
    | none =>
      rw [step_not_pending delivered pending]
      exact tracked
    | some f =>
      have found := (pending_spec pending).1
      rw [step_pending delivered pending]
      constructor
      · intro g member
        obtain ⟨old, inside, place, named⟩ : ∃ old ∈ σ.flights,
            old.place = g.place ∧ old.messageId = g.messageId := by
          rcases List.mem_or_eq_of_mem_set member with inside | rfl
          · exact ⟨g, inside, rfl, rfl⟩
          · exact ⟨f, mem_of_pending pending, rfl, rfl⟩
        obtain ⟨m, there, same⟩ := tracked.placed old inside
        rw [place] at there
        obtain ⟨after, held, kept, -⟩ := messageAt_update f.conversationId f.messageId
          (outcome delivered) there
        exact ⟨after, held, kept.trans (same.trans named)⟩
      · change ((σ.flights.set flight _).map Flight.place).Nodup
        rw [places_set (outcome delivered) found]
        exact tracked.distinct

theorem spares_iff (e : Event) : SparesOthers σ e ↔ Harmless σ e := by
  cases e with
  | setActiveConversation id =>
    refine iff_of_true (fun place m there _ => ?_) trivial
    change (messageAt (setActiveConversation σ.store id) place).map _ = _
    rw [messageAt, setActiveConversation_messages]
    exact congrArg _ there
  | sendMessage content ttl clock now hasApi =>
    refine iff_of_true (fun place m there _ => ?_) trivial
    change (messageAt (sendMessage σ.store content ttl _ hasApi) place).map _ = _
    rcases sendMessage_spec σ.store content ttl ⟨toString clock, now, now⟩ hasApi with
      ⟨-, same⟩ | ⟨id, new, -, -, -, appended⟩
    · rw [same, there]
      rfl
    · rw [messageAt_of_append appended there]
      rfl
  | settle flight delivered =>
    rw [SparesOthers, Harmless, Sending.settled]
    cases pending : σ.pending flight with
    | none =>
      refine iff_of_true (fun place m there _ => ?_) fun f none => nomatch none
      rw [step_not_pending delivered pending, there]
      rfl
    | some f =>
      rw [step_pending delivered pending]
      constructor
      · rintro spares g found i m there ne named
        obtain rfl : f = g := Option.some.inj found
        obtain ⟨new, held, -, status⟩ := messageAt_update f.conversationId f.messageId
          (outcome delivered) there
        have kept := spares _ m there fun same =>
          ne (congrArg Prod.snd (Option.some.inj same)).symm
        rw [if_pos ⟨rfl, named⟩] at status
        rw [held, Option.map_some, Option.some.injEq, status] at kept
        exact kept.symm
      · intro harmless place m there elsewhere
        obtain ⟨new, held, -, status⟩ := messageAt_update f.conversationId f.messageId
          (outcome delivered) there
        rw [held, Option.map_some, status]
        split
        · next both =>
          obtain ⟨id, i⟩ := place
          obtain ⟨here, named⟩ : id = f.conversationId ∧ m.id = f.messageId := both
          subst here
          refine congrArg some (harmless f rfl i m there ?_ named).symm
          rintro rfl
          exact elsewhere rfl
        · rfl

theorem own_step (tracked : Tracked σ) (own : OwnStatus σ) {e : Event} (harmless : Harmless σ e) :
    OwnStatus (step σ e).2 := by
  have spares := (spares_iff e).mpr harmless
  -- a call that does not end keeps the status of its message
  have kept : ∀ f ∈ σ.flights, σ.settled e ≠ some f.place →
      (messageAt (step σ e).2.store f.place).map Message.status = some f.status := by
    intro f member elsewhere
    obtain ⟨m, there, -⟩ := tracked.placed f member
    have status := own f member
    rw [there, Option.map_some] at status
    rw [spares f.place m there elsewhere, status]
  cases e with
  | setActiveConversation id => exact fun f member => kept f member nofun
  | sendMessage content ttl clock now hasApi =>
    refine List.forall_mem_append.mpr ⟨fun f member => kept f member nofun, fun f new => ?_⟩
    rcases sendMessage_spec σ.store content ttl ⟨toString clock, now, now⟩ hasApi with
      ⟨none, -⟩ | ⟨id, m, goes, -, sending, appended⟩
    · rw [launched, none] at new
      cases new
    · rw [launched, goes] at new
      obtain rfl : f = ⟨id, toString clock, (σ.store.messages.of id).length, .sending⟩ :=
        List.mem_singleton.mp new
      exact (congrArg _ ((messageAt_append appended _).trans (if_pos rfl))).trans
        (congrArg some sending)
  | settle flight delivered =>
    cases pending : σ.pending flight with
    | none =>
      rw [step_not_pending delivered pending]
      exact own
    | some f =>
      have found := (pending_spec pending).1
      rw [step_pending delivered pending] at kept ⊢
      intro g member
      obtain ⟨j, entry⟩ := List.mem_iff_getElem?.mp member
      by_cases here : flight = j
      · -- the call that ends
        subst here
        rw [List.getElem?_set_self (List.getElem?_eq_some_iff.mp found).1] at entry
        obtain rfl := Option.some.inj entry
        obtain ⟨m, there, named⟩ := tracked.placed f (mem_of_pending pending)
        obtain ⟨new, held, -, status⟩ := messageAt_update f.conversationId f.messageId
          (outcome delivered) there
        rw [if_pos ⟨rfl, named⟩] at status
        exact (congrArg _ held).trans (congrArg some status)
      · rw [List.getElem?_set_ne here] at entry
        refine kept g (List.mem_of_getElem? entry) fun same => here ?_
        rw [Sending.settled, pending, Option.map_some, Option.some.injEq] at same
        refine (List.getElem?_inj ?_ tracked.distinct).mp ?_
        · rw [List.length_map]
          exact (List.getElem?_eq_some_iff.mp found).1
        · rw [List.getElem?_map, List.getElem?_map, found, entry, Option.map_some,
            Option.map_some, same]

end

/-- The store, and no sends under way. -/
def idle (s : State) : Sending := ⟨s, []⟩

theorem idle_tracked (s : State) : Tracked (idle s) := ⟨List.forall_mem_nil _, List.nodup_nil⟩

/-- In every run each message has the status of its own send, and no end of a send changes that of
another message, exactly if no send ends while another message with its id is in its conversation
in some other status. -/
theorem send_status_iff (s : State) (run : List Event) :
    ((∀ front back, run = front ++ back → OwnStatus (Mealy.final step (idle s) front)) ∧
      Mealy.Along step SparesOthers (idle s) run) ↔
    Mealy.Along step Harmless (idle s) run := by
  constructor
  · rintro ⟨-, spares⟩
    exact Mealy.along_mono (fun _ e => (spares_iff e).mp) spares
  · intro harmless
    refine ⟨?_, Mealy.along_mono (fun _ e => (spares_iff e).mpr) harmless⟩
    rintro front back rfl
    have both := Mealy.final_invariant (fun σ => Tracked σ ∧ OwnStatus σ)
      (fun σ e both ok => ⟨tracked_step both.1 e, own_step both.1 both.2 ok⟩)
      ⟨idle_tracked s, List.forall_mem_nil _⟩ ((Mealy.along_append _ front back).mp harmless).1
    exact both.2

/-- No message of the conversation has the id that the clock gives. -/
def FreshClock (σ : Sending) : Event → Prop
  | .sendMessage _ _ clock _ hasApi => ∀ id ∈ target σ.store hasApi,
      ∀ i m, messageAt σ.store (id, i) = some m → m.id ≠ toString clock
  | _ => True

/-- A call's message is the only one of its id in the conversation. -/
def OnlyOnes (σ : Sending) : Prop :=
  ∀ f ∈ σ.flights, ∀ i m, messageAt σ.store (f.conversationId, i) = some m → i ≠ f.position →
    m.id ≠ f.messageId

theorem onlyOnes_step {σ : Sending} (tracked : Tracked σ) (only : OnlyOnes σ) {e : Event}
    (fresh : FreshClock σ e) : OnlyOnes (step σ e).2 := by
  cases e with
  | setActiveConversation id =>
    intro f member i m there
    change messageAt (setActiveConversation σ.store id) _ = _ at there
    rw [messageAt, setActiveConversation_messages] at there
    exact only f member i m there
  | sendMessage content ttl clock now hasApi =>
    intro f member i m there
    change f ∈ σ.flights ++ (launched σ.store clock hasApi).toList at member
    change messageAt (sendMessage σ.store content ttl ⟨toString clock, now, now⟩ hasApi) _ = _
      at there
    rcases sendMessage_spec σ.store content ttl ⟨toString clock, now, now⟩ hasApi with
      ⟨none, same⟩ | ⟨id, new, goes, named, -, appended⟩
    · rw [same] at there
      rw [launched, none, Option.map_none, Option.toList_none, List.append_nil] at member
      exact only f member i m there
    · rw [messageAt_append appended] at there
      rw [launched, goes, Option.map_some, Option.toList_some] at member
      have unused := fresh id goes
      rcases List.mem_append.mp member with old | last
      · split at there
        · next place =>
          -- the new message against one that is under way
          obtain ⟨here, -⟩ := Prod.mk.inj place
          obtain ⟨before, held, its⟩ := tracked.placed f old
          rw [Flight.place, here] at held
          intro _ clash
          rw [← Option.some.inj there, named] at clash
          exact unused _ before held (its.trans clash.symm)
        · exact only f old i m there
      · rw [List.mem_singleton.mp last] at there ⊢
        intro ne
        rw [if_neg fun place => ne (congrArg Prod.snd place)] at there
        exact unused i m there
  | settle flight delivered =>
    cases pending : σ.pending flight with
    | none =>
      rw [step_not_pending delivered pending]
      exact only
    | some f =>
      rw [step_pending delivered pending]
      intro g member i m there
      have ids := messageAt_update_id σ.store f.conversationId f.messageId (outcome delivered)
        (g.conversationId, i)
      rw [there, Option.map_some] at ids
      obtain ⟨before, held, same⟩ := Option.map_eq_some_iff.mp ids.symm
      rw [← same]
      rcases List.mem_or_eq_of_mem_set member with inside | rfl
      · exact only g inside i before held
      · exact only f (mem_of_pending pending) i before held

theorem fresh_clocks_harmless (s : State) (run : List Event)
    (fresh : Mealy.Along step FreshClock (idle s) run) :
    Mealy.Along step Harmless (idle s) run := by
  refine Mealy.along_of_invariant (fun σ => Tracked σ ∧ OnlyOnes σ)
    (fun σ e both ok => ⟨tracked_step both.1 e, onlyOnes_step both.1 both.2 ok⟩) ?_
    ⟨idle_tracked s, List.forall_mem_nil _⟩ fresh
  rintro σ e ⟨-, only⟩ -
  cases e with
  | settle flight delivered =>
    intro f pending i m there ne named
    exact absurd named (only f (mem_of_pending pending) i m there ne)
  | setActiveConversation | sendMessage => trivial

instance (σ : Sending) : Decidable (OwnStatus σ) :=
  inferInstanceAs (Decidable (∀ f ∈ σ.flights,
    (messageAt σ.store f.place).map Message.status = some f.status))

/-- Two messages in one millisecond; the first is delivered, and then the second is not. -/
def twoAtOnce : List Event :=
  [.setActiveConversation (some "NN-bob"), .sendMessage "one" none 1700 1700 true,
    .sendMessage "two" none 1700 1700 true, .settle 0 true, .settle 1 false]

/-- The message that was delivered ends as one that was not. -/
theorem same_reading_marks_both :
    ¬ OwnStatus (Mealy.final step (idle (emptyStore none)) twoAtOnce) ∧
    ((Mealy.final step (idle (emptyStore none)) twoAtOnce).store.messages.of "NN-bob").map
      Message.status = [.error, .error] := by
  constructor
  · intro own
    exact absurd own (by decide +kernel)
  · decide +kernel

end SendStatus
