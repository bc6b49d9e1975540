import AddMessenger.CallSignaling

/-!
# When both ends of a call agree

The invariant of two clients and the messages between them, along the runs in which no call
that is dialing or reconnecting ends while the other end is in it.
-/

namespace CallAgreement

open CallSignaling

def HangupIn (inbox : List SignalingMessage) : Prop := ∃ reason, .hangup reason ∈ inbox

/-- What holds of the phases of the caller and the callee and of the messages to them: who is
alone in a call will still hear of it. -/
structure Agreeing (pa pb : Phase) (toA toB : List SignalingMessage) : Prop where
  callerKind : pa ≠ .ringing
  calleeKind : pb ≠ .dialing
  noOffer : .offer ∉ toA
  calling : .offer ∈ toB → pa = .dialing ∧ pb = .absent ∧ .answer ∉ toA ∧ toB.count .offer ≤ 1
  rings : pb = .ringing → .answer ∉ toA ∧ (pa.Live → pa = .dialing)
  callerAlone : pa.Live → ¬ pb.Live →
    .offer ∈ toB ∨ (pa = .dialing ∧ .answer ∉ toA) ∨ HangupIn toA
  calleeAlone : pb.Live → ¬ pa.Live → HangupIn toB
  callerTold : HangupIn toA → ¬ pb.Live ∧ .offer ∉ toB
  calleeTold : HangupIn toB → ¬ pa.Live

theorem hangupIn_append {inbox sent : List SignalingMessage} :
    HangupIn (inbox ++ sent) ↔ HangupIn inbox ∨ HangupIn sent := by
  simp only [HangupIn, List.mem_append, exists_or]

theorem hangupIn_cons {m : SignalingMessage} {rest : List SignalingMessage} :
    HangupIn (m :: rest) ↔ (∃ reason, m = .hangup reason) ∨ HangupIn rest := by
  simp only [HangupIn, List.mem_cons, exists_or, eq_comm]

/-- What the other end has learnt when these messages are sent to it. -/
structure News (inbox sent : List SignalingMessage) : Prop where
  offer : SignalingMessage.offer ∈ inbox ++ sent ↔ SignalingMessage.offer ∈ inbox
  answer : SignalingMessage.answer ∈ inbox ++ sent ↔ SignalingMessage.answer ∈ inbox
  offers : (inbox ++ sent).count .offer = inbox.count .offer
  hangup : HangupIn (inbox ++ sent) ↔ HangupIn inbox ∨ HangupIn sent

theorem news {inbox sent : List SignalingMessage} (no_offer : SignalingMessage.offer ∉ sent)
    (no_answer : SignalingMessage.answer ∉ sent) : News inbox sent where
  offer := by rw [List.mem_append, or_iff_left no_offer]
  answer := by rw [List.mem_append, or_iff_left no_answer]
  offers := by rw [List.count_append, List.count_eq_zero.mpr no_offer, Nat.add_zero]
  hangup := hangupIn_append

theorem plain_news (inbox : List SignalingMessage) {sent : List SignalingMessage}
    (plain : ∀ m ∈ sent, Plain m) :
    News inbox sent ∧ ¬ HangupIn sent := by
  refine ⟨news (fun member => (plain _ member).1 rfl) fun member => (plain _ member).2.1 rfl, ?_⟩
  rintro ⟨reason, member⟩
  exact (plain _ member).2.2 reason rfl

theorem hangup_news (inbox : List SignalingMessage) {notes : List SignalingMessage}
    (plain : ∀ m ∈ notes, Plain m) (reason : CallEndReason) :
    News inbox (notes ++ [.hangup reason]) ∧ HangupIn (notes ++ [.hangup reason]) := by
  refine ⟨news ?_ ?_, reason, List.mem_append_right _ List.mem_cons_self⟩
  · simpa using fun member => (plain _ member).1 rfl
  · simpa using fun member => (plain _ member).2.1 rfl

theorem Agreeing.caller_moves {ends : Prop} {pa pb pa' : Phase}
    {toA toB sent : List SignalingMessage}
    (agree : Agreeing pa pb toA toB) (move : Moves ends pa sent pa')
    (spare : ends → pa = .dialing ∨ pa = .reconnecting → ¬ pb.Live ∧ .offer ∉ toB) :
    Agreeing pa' pb toA (toB ++ sent) := by
  obtain ⟨callerKind, calleeKind, noOffer, calling, rings, callerAlone, calleeAlone, callerTold,
    calleeTold⟩ := agree
  cases move with
  | stays plain =>
    obtain ⟨⟨offer, answer, offers, hangup⟩, silent⟩ := plain_news toB plain
    constructor <;> grind
  | accepts => exact absurd rfl callerKind
  | shifts talks talks' =>
    rw [List.append_nil]
    constructor <;> grind [Phase.Live]
  | @hangsUp notes reason plain =>
    -- the callee may now be alone in the call, and the hangup is on its way to it
    obtain ⟨⟨offer, answer, offers, hangup⟩, told⟩ := hangup_news toB plain reason
    constructor <;> grind [Phase.Live]
  | leaves ending plain quiet =>
    -- nothing tells the callee, but `spare` says that it is in no call
    obtain ⟨⟨offer, answer, offers, hangup⟩, silent⟩ := plain_news toB plain
    constructor <;> grind [Phase.Live]
  | forgets =>
    rw [List.append_nil]
    constructor <;> grind [Phase.Live]

theorem Agreeing.callee_moves {ends : Prop} {pa pb pb' : Phase}
    {toA toB sent : List SignalingMessage}
    (agree : Agreeing pa pb toA toB) (move : Moves ends pb sent pb')
    (spare : ends → pb = .dialing ∨ pb = .reconnecting → ¬ pa.Live ∧ .offer ∉ toA) :
    Agreeing pa pb' (toA ++ sent) toB := by
  obtain ⟨callerKind, calleeKind, noOffer, calling, rings, callerAlone, calleeAlone, callerTold,
    calleeTold⟩ := agree
  cases move with
  | stays plain =>
    obtain ⟨⟨offer, answer, offers, hangup⟩, silent⟩ := plain_news toA plain
    constructor <;> grind
  | accepts =>
    constructor <;> simp only [HangupIn] at * <;> grind [Phase.Live]
  | shifts talks talks' =>
    rw [List.append_nil]
    constructor <;> grind [Phase.Live]
  | @hangsUp notes reason plain =>
    -- as for the caller: `callerAlone` has the hangup
    obtain ⟨⟨offer, answer, offers, hangup⟩, told⟩ := hangup_news toA plain reason
    constructor <;> grind [Phase.Live]
  | leaves ending plain quiet =>
    obtain ⟨⟨offer, answer, offers, hangup⟩, silent⟩ := plain_news toA plain
    constructor <;> grind [Phase.Live]
  | forgets =>
    rw [List.append_nil]
    constructor <;> grind [Phase.Live]

theorem Agreeing.caller_handles {pa pb : Phase} {toA toB : List SignalingMessage}
    {m : SignalingMessage} (agree : Agreeing pa pb (m :: toA) toB) :
    Agreeing (pa.handled m) pb toA (toB ++ pa.replies m) := by
  obtain ⟨callerKind, calleeKind, noOffer, calling, rings, callerAlone, calleeAlone, callerTold,
    calleeTold⟩ := agree
  rw [hangupIn_cons] at callerAlone callerTold
  cases m with
  | offer => exact absurd List.mem_cons_self noOffer
  | answer =>
    cases pa <;> simp only [Phase.handled, Phase.replies, List.append_nil] <;>
      constructor <;> grind [Phase.Live]
  | hangup reason =>
    -- a hangup is under way only to the last one in the call
    have unheard := callerTold (.inl ⟨reason, rfl⟩)
    cases pa with
    | talking =>
      obtain ⟨⟨offer, answer, offers, hangup⟩, told⟩ :=
        hangup_news toB plain_nil reason
      simp only [Phase.handled, Phase.replies]
      constructor <;> grind [Phase.Live]
    | absent | dialing | ringing | reconnecting | finished =>
      simp only [Phase.handled, Phase.replies, List.append_nil]
      constructor <;> grind [Phase.Live]
  | iceCandidate | busy | reject | accept =>
    cases pa <;> simp only [Phase.handled, Phase.replies, List.append_nil] <;>
      constructor <;> grind [Phase.Live]

theorem Agreeing.callee_handles {pa pb : Phase} {toA toB : List SignalingMessage}
    {m : SignalingMessage} (agree : Agreeing pa pb toA (m :: toB)) :
    Agreeing pa (pb.handled m) (toA ++ pb.replies m) toB := by
  obtain ⟨callerKind, calleeKind, noOffer, calling, rings, callerAlone, calleeAlone, callerTold,
    calleeTold⟩ := agree
  rw [hangupIn_cons] at calleeAlone calleeTold
  cases m with
  | offer =>
    -- the one offer there is (`calling`) makes the callee ring
    constructor <;> grind [Phase.Live, Phase.handled, Phase.replies]
  | answer =>
    cases pb <;> simp only [Phase.handled, Phase.replies, List.append_nil] <;>
      constructor <;> grind [Phase.Live]
  | hangup reason =>
    have unheard := calleeTold (.inl ⟨reason, rfl⟩)
    cases pb with
    | talking =>
      obtain ⟨⟨offer, answer, offers, hangup⟩, told⟩ :=
        hangup_news toA plain_nil reason
      simp only [Phase.handled, Phase.replies]
      constructor <;> grind [Phase.Live]
    | absent | dialing | ringing | reconnecting | finished =>
      simp only [Phase.handled, Phase.replies, List.append_nil]
      constructor <;> grind [Phase.Live]
  | iceCandidate | busy | reject | accept =>
    cases pb <;> simp only [Phase.handled, Phase.replies, List.append_nil] <;>
      constructor <;> grind [Phase.Live]

/-- The invariant of the system. -/
structure Inv (s : System) : Prop where
  caller : s.caller.Sound
  callee : s.callee.Sound
  untouched : .offer ∈ s.toCallee → s.callee = Client.new
  before : s.started = false → s.caller = Client.new ∧ s.callee = Client.new ∧
    (∀ m ∈ s.toCaller, Plain m) ∧ ∀ m ∈ s.toCallee, Plain m
  agreeing : Agreeing s.caller.phase s.callee.phase s.toCaller s.toCallee

theorem inv_atStart : Inv atStart := by
  refine ⟨new_sound, new_sound, nofun, fun _ => ⟨rfl, rfl, plain_nil, plain_nil⟩, ?_⟩
  constructor <;> simp [atStart, Client.new, Client.phase, Phase.Live, HangupIn]

theorem Inv.starts {s : System} (inv : Inv s) (unstarted : s.started = false) :
    Inv { s.become .caller s.toCaller (startCall s.caller) with started := true } := by
  obtain ⟨caller, callee, plainA, plainB⟩ := inv.before unstarted
  refine ⟨caller ▸ startCall_sound, inv.callee, fun _ => callee, nofun, ?_⟩
  have absent : s.callee.phase = .absent := by rw [callee]; rfl
  have no_offer : SignalingMessage.offer ∉ s.toCallee := fun member => (plainB _ member).1 rfl
  have count : (s.toCallee ++ [SignalingMessage.offer]).count .offer = 1 := by
    rw [List.count_append, List.count_eq_zero.mpr no_offer]
    rfl
  have no_answer : SignalingMessage.answer ∉ s.toCaller := fun member =>
    (plainA _ member).2.1 rfl
  have offered : SignalingMessage.offer ∈ s.toCallee ++ [.offer] :=
    List.mem_append_right _ List.mem_cons_self
  have silentA := (plain_news [] plainA).2
  have silentB : ¬ HangupIn (s.toCallee ++ [.offer]) := by
    rw [hangupIn_append, not_or, hangupIn_cons]
    exact ⟨(plain_news [] plainB).2, by simp [HangupIn]⟩
  change Agreeing .dialing s.callee.phase s.toCaller (s.toCallee ++ [.offer])
  rw [absent]
  refine ⟨by decide, by decide, fun member => (plainA _ member).1 rfl, ?_, nofun, ?_, ?_, ?_, ?_⟩
  · exact fun _ => ⟨rfl, rfl, no_answer, Nat.le_of_eq count⟩
  · exact fun _ _ => .inl offered
  · exact fun live => absurd live (by simp [Phase.Live])
  · exact fun told => absurd told silentA
  · exact fun told => absurd told silentB

/-- What the condition says of the phases. -/
theorem spares_phase {s : System} {side : Side} {action : Action}
    (spare : Spares s (.act side action)) (ends : action.Ends (s.client side))
    (quiet : (s.client side).phase = .dialing ∨ (s.client side).phase = .reconnecting) :
    ¬ (s.client side.other).phase.Live ∧ .offer ∉ s.inbox side.other := by
  rw [← live_iff_phase]
  cases here : (s.client side).activeCall with
  | none =>
    rw [Client.phase, here] at quiet
    exact absurd quiet (by decide)
  | some call =>
    refine spare ends call here ?_
    rw [phase_of_some here] at quiet
    cases state : call.state <;> rw [state] at quiet <;> first | exact .inl rfl | exact .inr rfl |
      exact absurd quiet (by decide)

theorem Inv.acts {s : System} (inv : Inv s) (side : Side) (action : Action)
    (spare : Spares s (.act side action)) :
    Inv (s.become side (s.inbox side) ((s.client side).act action)) := by
  have spared := spares_phase spare
  cases side with
  | caller =>
    have move := act_moves inv.caller action
    refine ⟨act_sound inv.caller action, inv.callee, fun member => ?_, fun unstarted => ?_,
      inv.agreeing.caller_moves move spared⟩
    · exact inv.untouched ((List.mem_append.mp member).resolve_right move.no_offer)
    · obtain ⟨caller, callee, plainA, plainB⟩ := inv.before unstarted
      have acts := new_acts action
      rw [← caller] at acts
      exact ⟨acts.1.trans caller, callee, plainA, List.forall_mem_append.mpr ⟨plainB, acts.2⟩⟩
  | callee =>
    have move := act_moves inv.callee action
    refine ⟨inv.caller, act_sound inv.callee action, fun member => ?_, fun unstarted => ?_,
      inv.agreeing.callee_moves move spared⟩
    · have callee := inv.untouched member
      have acts := (new_acts action).1
      rw [← callee] at acts
      exact acts.trans callee
    · obtain ⟨caller, callee, plainA, plainB⟩ := inv.before unstarted
      have acts := new_acts action
      rw [← callee] at acts
      exact ⟨caller, acts.1.trans callee, List.forall_mem_append.mpr ⟨plainA, acts.2⟩, plainB⟩

theorem Inv.delivers {s : System} (inv : Inv s) {side : Side} {m : SignalingMessage}
    {rest : List SignalingMessage} (first : s.inbox side = m :: rest) :
    Inv (s.become side rest (handleSignalingMessage (s.client side) m)) := by
  cases side with
  | caller =>
    change s.toCaller = m :: rest at first
    have later : m ≠ .offer := by
      rintro rfl
      exact inv.agreeing.noOffer (first ▸ List.mem_cons_self)
    obtain ⟨phase, sent⟩ := handle_phase inv.caller m
    have agreeing := inv.agreeing
    rw [first] at agreeing
    have agreed := agreeing.caller_handles
    rw [← phase, ← sent] at agreed
    refine ⟨handle_sound inv.caller fun offer => absurd offer later, inv.callee,
      fun member => ?_, fun unstarted => ?_, agreed⟩
    · refine inv.untouched ((List.mem_append.mp member).resolve_right ?_)
      change .offer ∉ (handleSignalingMessage s.caller m).1
      rw [sent]
      exact offer_not_mem_replies _ m
    · obtain ⟨caller, callee, plainA, plainB⟩ := inv.before unstarted
      have unmoved := new_handles later
      rw [← caller] at unmoved
      change (handleSignalingMessage s.caller m).2 = Client.new ∧ _ ∧ _ ∧
        ∀ msg ∈ s.toCallee ++ (handleSignalingMessage s.caller m).1, Plain msg
      rw [unmoved, List.append_nil]
      rw [first] at plainA
      exact ⟨caller, callee, (List.forall_mem_cons.mp plainA).2, plainB⟩
  | callee =>
    change s.toCallee = m :: rest at first
    obtain ⟨phase, sent⟩ := handle_phase inv.callee m
    have agreeing := inv.agreeing
    have untouched := inv.untouched
    rw [first] at agreeing untouched
    have agreed := agreeing.callee_handles
    rw [← phase, ← sent] at agreed
    refine ⟨inv.caller, handle_sound inv.callee fun offer => ?_, fun member => ?_,
      fun unstarted => ?_, agreed⟩
    · subst offer
      exact untouched List.mem_cons_self
    · change .offer ∈ rest at member
      have callee := untouched (List.mem_cons_of_mem m member)
      -- there is one offer at most
      have later : m ≠ .offer := by
        rintro rfl
        have once := (agreeing.calling List.mem_cons_self).2.2.2
        rw [List.count_cons_self] at once
        exact absurd (List.count_pos_iff.mpr member) (by omega)
      have unmoved := new_handles later
      rw [← callee] at unmoved
      change (handleSignalingMessage s.callee m).2 = Client.new
      rw [unmoved]
      exact callee
    · obtain ⟨caller, callee, plainA, plainB⟩ := inv.before unstarted
      rw [first] at plainB
      obtain ⟨plain, plainRest⟩ := List.forall_mem_cons.mp plainB
      have unmoved := new_handles plain.1
      rw [← callee] at unmoved
      change _ ∧ (handleSignalingMessage s.callee m).2 = Client.new ∧
        (∀ msg ∈ s.toCaller ++ (handleSignalingMessage s.callee m).1, Plain msg) ∧ _
      rw [unmoved, List.append_nil]
      exact ⟨caller, callee, plainA, plainRest⟩

theorem inv_step (s : System) (e : Event) (inv : Inv s) (spare : Spares s e) :
    Inv (step s e).2 := by
  cases e with
  | startCall =>
    rw [step]
    cases started : s.started with
    | true => exact inv
    | false => exact inv.starts started
  | act side action => exact inv.acts side action spare
  | deliver side =>
    rw [step]
    split
    · exact inv
    · next m rest first => exact inv.delivers first

/-- At rest nobody is alone in the call. -/
theorem Inv.agrees {s : System} (inv : Inv s) (quiet : Quiescent s) :
    s.caller.Live ↔ s.callee.Live := by
  have toCaller : s.toCaller = [] := quiet.noMessage .caller
  have toCallee : s.toCallee = [] := quiet.noMessage .callee
  have silent : ¬ HangupIn [] := fun ⟨_, member⟩ => List.not_mem_nil member
  obtain ⟨-, -, -, -, -, callerAlone, calleeAlone, -, -⟩ := inv.agreeing
  rw [toCaller, toCallee] at callerAlone
  rw [toCallee] at calleeAlone
  rw [live_iff_phase, live_iff_phase]
  constructor
  · intro live
    by_contra dead
    rcases callerAlone live dead with offer | ⟨dialing, -⟩ | told
    · cases offer
    · cases here : s.caller.activeCall with
      | none =>
        rw [Client.phase, here] at dialing
        cases dialing
      | some call =>
        have state : call.state = .dialing := by
          rw [phase_of_some here] at dialing
          cases state : call.state <;> rw [state] at dialing <;> first | rfl | cases dialing
        have pending := inv.caller.timed call here state
        rw [show s.caller.dialTimer = false from quiet.noDialTimer .caller] at pending
        cases pending
    · exact silent told
  · intro live
    by_contra dead
    exact silent (calleeAlone live dead)

/-- Both ends agree in the runs in which a call that is dialing or reconnecting ends only if
the other end is not in it. -/
theorem agrees_of_spares (run : List Event) (spares : Mealy.Along step Spares atStart run) :
    Agrees run := by
  rintro front back rfl quiet
  have inv := Mealy.final_invariant Inv inv_step inv_atStart
    ((Mealy.along_append atStart front back).mp spares).1
  exact inv.agrees quiet

/-- A call that is accepted, held, and ended by the caller. -/
def wholeCall : List Event :=
  [.startCall, .deliver .callee, .act .callee .acceptCall, .deliver .caller,
    .act .caller (.onconnectionstatechange .connected),
    .act .callee (.onconnectionstatechange .connected), .act .caller (.endCall .localHangup),
    .deliver .callee, .deliver .caller, .act .caller .dialTimeout, .act .caller .cleanup,
    .act .callee .cleanup]

theorem whole_call_agrees : Agrees wholeCall := by
  refine agrees_of_spares wholeCall ⟨trivial, trivial, ?_, trivial, ?_, ?_, ?_, trivial, trivial,
    ?_, ?_, ?_, trivial⟩
  · exact fun ends => ends.elim
  · exact fun ends => nomatch ends
  · exact fun ends => nomatch ends
  · rintro - call ⟨⟩ quiet
    exact absurd quiet (by decide)
  · rintro - call ⟨⟩ quiet
    exact absurd quiet (by decide)
  · exact fun ends => ends.elim
  · exact fun ends => ends.elim

/-- The caller ends the call before it is answered. -/
def endedDialing : List Event :=
  [.startCall, .deliver .callee, .act .caller (.endCall .localHangup), .act .caller .dialTimeout,
    .act .caller .cleanup]

/-- Nobody answers for thirty seconds. -/
def timedOut : List Event :=
  [.startCall, .deliver .callee, .act .caller .dialTimeout, .act .caller .cleanup]

/-- The caller ends the call while the connection is lost. -/
def endedReconnecting : List Event :=
  [.startCall, .deliver .callee, .act .callee .acceptCall, .deliver .caller,
    .act .caller (.onconnectionstatechange .connected),
    .act .callee (.onconnectionstatechange .connected),
    .act .caller (.onconnectionstatechange .disconnected), .act .caller (.endCall .localHangup),
    .act .caller .dialTimeout, .act .caller .cleanup]

/-- The caller has forgotten the call, nothing is on its way, and the callee is in the call. -/
structure LeftAlone (s : System) : Prop where
  caller : s.caller = Client.new
  toCaller : s.toCaller = []
  toCallee : s.toCallee = []
  dialTimer : s.callee.dialTimer = false
  cleanupTimers : s.callee.cleanupTimers = 0
  live : s.callee.phase.Live

theorem LeftAlone.not_agrees {run : List Event}
    (alone : LeftAlone (Mealy.final step atStart run)) : ¬ Agrees run := by
  obtain ⟨caller, toCaller, toCallee, dialTimer, cleanupTimers, live⟩ := alone
  intro agrees
  have quiet : Quiescent (Mealy.final step atStart run) := by
    refine ⟨?_, ?_, ?_⟩ <;> intro side <;> cases side
    · exact toCaller
    · exact toCallee
    · exact congrArg Client.dialTimer caller
    · exact dialTimer
    · exact congrArg Client.cleanupTimers caller
    · exact cleanupTimers
  obtain ⟨call, here, -⟩ :=
    (agrees run [] (List.append_nil _).symm quiet).mpr (live_iff_phase.mpr live)
  rw [caller] at here
  cases here

/-- The callee rings, or is connected, for ever. -/
theorem callee_left_alone :
    ¬ Agrees endedDialing ∧ ¬ Agrees timedOut ∧ ¬ Agrees endedReconnecting :=
  ⟨LeftAlone.not_agrees ⟨by decide, by decide, by decide, by decide, by decide, .inr (.inl rfl)⟩,
    LeftAlone.not_agrees ⟨by decide, by decide, by decide, by decide, by decide, .inr (.inl rfl)⟩,
    LeftAlone.not_agrees ⟨by decide, by decide, by decide, by decide, by decide,
      .inr (.inr (.inl rfl))⟩⟩

end CallAgreement
