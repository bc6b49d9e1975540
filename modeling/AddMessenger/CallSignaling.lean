import AddMessenger.Mealy

/-!
# Voice calls

`desktop-ui/src/services/webRTCCalling.ts` and the dispatch of signaling messages in
`desktop-ui/src/store/callStore.ts`: two clients, one call between them, and a channel in each
direction that keeps the order. An operation and the handling of a message take effect at once.
A peer connection that is closed, or has no offer to answer, refuses the descriptions it is
given, and reports its state only while it is open and has both of them.
-/

namespace CallSignaling

inductive CallState where
  | idle
  | dialing
  | ringing
  | connecting
  | active
  | reconnecting
  | ended
  | failed
  deriving DecidableEq

inductive CallDirection where
  | outgoing
  | incoming
  deriving DecidableEq

inductive CallEndReason where
  | localHangup
  | remoteHangup
  | remoteDeclined
  | remoteBusy
  | timeout
  | networkError
  | mediaError
  | signalingError
  deriving DecidableEq

/-- A message about the call. -/
inductive SignalingMessage where
  | offer
  | answer
  | iceCandidate
  | hangup (reason : CallEndReason)
  | busy
  | reject
  | accept
  deriving DecidableEq

inductive SignalingState where
  | haveLocalOffer
  | haveRemoteOffer
  | stable
  deriving DecidableEq

structure PeerConnection where
  signalingState : SignalingState
  closed : Bool
  deriving DecidableEq

structure ActiveCall where
  direction : CallDirection
  state : CallState
  peerConnection : PeerConnection
  deriving DecidableEq

/-- `activeCalls.get(callId)`, and the timers of the call that have not fired: the one of
`startCall`, and those of `endCall`. -/
structure Client where
  activeCall : Option ActiveCall
  dialTimer : Bool
  cleanupTimers : Nat
  deriving DecidableEq

def Client.new : Client := ⟨none, false, 0⟩

/-- What a client sends, and the client afterwards. -/
abbrev Sends := List SignalingMessage × Client

def PeerConnection.takes (pc : PeerConnection) (signalingState : SignalingState) : Bool :=
  !pc.closed && pc.signalingState = signalingState

def startCall (c : Client) : Sends :=
  ([.offer], { c with
    activeCall := some ⟨.outgoing, .dialing, ⟨.haveLocalOffer, false⟩⟩
    dialTimer := true })

def handleIncomingOffer (c : Client) : Sends :=
  ([], { c with activeCall := some ⟨.incoming, .ringing, ⟨.haveRemoteOffer, false⟩⟩ })

def handleAnswer (c : Client) : Sends :=
  match c.activeCall with
  | none => ([], c)
  | some call =>
    if call.peerConnection.takes .haveLocalOffer then
      ([], { c with
        activeCall := some { call with
          state := .connecting, peerConnection := ⟨.stable, false⟩ } })
    else ([], c)

/-- The peer hears of it only if the call was connected. -/
def endCall (c : Client) (reason : CallEndReason) : Sends :=
  match c.activeCall with
  | none => ([], c)
  | some call =>
    (if call.state = .active ∨ call.state = .connecting then [.hangup reason] else [],
      { c with
        activeCall := some { call with
          state := .ended, peerConnection := { call.peerConnection with closed := true } }
        cleanupTimers := c.cleanupTimers + 1 })

def acceptCall (c : Client) : Sends :=
  match c.activeCall with
  | none => ([], c)
  | some call =>
    if call.direction = .incoming ∧ call.peerConnection.takes .haveRemoteOffer = true then
      ([.answer], { c with
        activeCall := some { call with
          state := .connecting, peerConnection := ⟨.stable, false⟩ } })
    else ([], c)

def rejectCall (c : Client) : Sends :=
  match c.activeCall with
  | none => ([], c)
  | some call =>
    if call.direction = .incoming then
      let (sent, c) := endCall c .remoteDeclined
      (.reject :: sent, c)
    else ([], c)

/-- The timer of `startCall` fires. -/
def dialTimeout (c : Client) : Sends :=
  if c.dialTimer then
    let c := { c with dialTimer := false }
    if c.activeCall.map ActiveCall.state = some .dialing then endCall c .timeout else ([], c)
  else ([], c)

/-- A timer of `endCall` fires. -/
def cleanup (c : Client) : Sends :=
  if 0 < c.cleanupTimers then
    ([], { c with activeCall := none, cleanupTimers := c.cleanupTimers - 1 })
  else ([], c)

inductive ConnectionState where
  | connected
  | disconnected
  | failed
  | closed
  deriving DecidableEq

def onconnectionstatechange (c : Client) (connectionState : ConnectionState) : Sends :=
  match c.activeCall with
  | none => ([], c)
  | some call =>
    if call.peerConnection.takes .stable then
      match connectionState with
      | .connected => ([], { c with activeCall := some { call with state := .active } })
      | .disconnected | .failed =>
        if call.state = .active then
          ([], { c with activeCall := some { call with state := .reconnecting } })
        else ([], c)
      | .closed => endCall c .networkError
    else ([], c)

/-- `handleSignalingMessage` of the store; on `reject`, `busy` and `accept` it leaves the
service alone. -/
def handleSignalingMessage (c : Client) : SignalingMessage → Sends
  | .offer => handleIncomingOffer c
  | .answer => handleAnswer c
  | .hangup reason => endCall c reason
  | .iceCandidate | .busy | .reject | .accept => ([], c)

/-- What happens at a client by itself. -/
inductive Action where
  | acceptCall
  | rejectCall
  | endCall (reason : CallEndReason)
  | dialTimeout
  | cleanup
  | onconnectionstatechange (connectionState : ConnectionState)
  | onicecandidate

def Client.act (c : Client) : Action → Sends
  | .acceptCall => CallSignaling.acceptCall c
  | .rejectCall => CallSignaling.rejectCall c
  | .endCall reason => CallSignaling.endCall c reason
  | .dialTimeout => CallSignaling.dialTimeout c
  | .cleanup => CallSignaling.cleanup c
  | .onconnectionstatechange connectionState =>
    CallSignaling.onconnectionstatechange c connectionState
  | .onicecandidate => ([.iceCandidate], c)

inductive Side where
  | caller
  | callee
  deriving DecidableEq

def Side.other : Side → Side
  | .caller => .callee
  | .callee => .caller

/-- The clients, and the messages that are on their way to them. -/
structure System where
  started : Bool
  caller : Client
  callee : Client
  toCaller : List SignalingMessage
  toCallee : List SignalingMessage

def atStart : System := ⟨false, Client.new, Client.new, [], []⟩

def System.client (s : System) : Side → Client
  | .caller => s.caller
  | .callee => s.callee

def System.inbox (s : System) : Side → List SignalingMessage
  | .caller => s.toCaller
  | .callee => s.toCallee

/-- The client of a side has become another one, with this inbox, and has sent messages. -/
def System.become (s : System) (side : Side) (inbox : List SignalingMessage) (after : Sends) :
    System :=
  match side with
  | .caller =>
    { s with caller := after.2, toCaller := inbox, toCallee := s.toCallee ++ after.1 }
  | .callee =>
    { s with callee := after.2, toCallee := inbox, toCaller := s.toCaller ++ after.1 }

inductive Event where
  | startCall
  | act (side : Side) (action : Action)
  | deliver (side : Side)

/-- A call has one start, since each start makes a new call id. -/
def step (s : System) : Event → Unit × System
  | .startCall =>
    ((), if s.started then s
      else { s.become .caller s.toCaller (startCall s.caller) with started := true })
  | .act side action => ((), s.become side (s.inbox side) ((s.client side).act action))
  | .deliver side =>
    match s.inbox side with
    | [] => ((), s)
    | m :: rest => ((), s.become side rest (handleSignalingMessage (s.client side) m))

def Client.Live (c : Client) : Prop :=
  ∃ call, c.activeCall = some call ∧ (call.state = .dialing ∨ call.state = .ringing ∨
    call.state = .connecting ∨ call.state = .active ∨ call.state = .reconnecting)

/-- No message is in flight and no timer is pending. -/
structure Quiescent (s : System) : Prop where
  noMessage : ∀ side, s.inbox side = []
  noDialTimer : ∀ side, (s.client side).dialTimer = false
  noCleanup : ∀ side, (s.client side).cleanupTimers = 0

/-- In every quiet state that the run reaches the call is live at both ends or at none. -/
def Agrees (run : List Event) : Prop :=
  ∀ front back, run = front ++ back → Quiescent (Mealy.final step atStart front) →
    ((Mealy.final step atStart front).caller.Live ↔ (Mealy.final step atStart front).callee.Live)

/-- The action calls `endCall`. -/
def Action.Ends (c : Client) : Action → Prop
  | .endCall _ => True
  | .rejectCall => ∃ call, c.activeCall = some call ∧ call.direction = .incoming
  | .dialTimeout => c.dialTimer = true ∧ c.activeCall.map ActiveCall.state = some .dialing
  | .onconnectionstatechange connectionState => connectionState = .closed ∧
    ∃ call, c.activeCall = some call ∧ call.peerConnection.takes .stable = true
  | .acceptCall | .cleanup | .onicecandidate => False

/-- A call that is dialing or reconnecting ends only if it is not live at the other end and
will not ring there. -/
def Spares (s : System) : Event → Prop
  | .act side action => action.Ends (s.client side) → ∀ call,
    (s.client side).activeCall = some call → call.state = .dialing ∨ call.state = .reconnecting →
      ¬ (s.client side.other).Live ∧ .offer ∉ s.inbox side.other
  | .startCall | .deliver _ => True

inductive Phase where
  | absent
  | dialing
  | ringing
  | talking
  | reconnecting
  | finished
  deriving DecidableEq

def CallState.phase : CallState → Phase
  | .dialing => .dialing
  | .ringing => .ringing
  | .connecting | .active => .talking
  | .reconnecting => .reconnecting
  | .idle | .ended | .failed => .finished

def Client.phase (c : Client) : Phase :=
  match c.activeCall with
  | none => .absent
  | some call => call.state.phase

def Phase.Live (p : Phase) : Prop :=
  p = .dialing ∨ p = .ringing ∨ p = .talking ∨ p = .reconnecting

/-- The peer connection fits the state. -/
def ActiveCall.Sound (call : ActiveCall) : Prop :=
  match call.state with
  | .dialing => call.direction = .outgoing ∧ call.peerConnection = ⟨.haveLocalOffer, false⟩
  | .ringing => call.direction = .incoming ∧ call.peerConnection = ⟨.haveRemoteOffer, false⟩
  | .connecting | .active | .reconnecting => call.peerConnection = ⟨.stable, false⟩
  | .ended => call.peerConnection.closed = true
  | .idle | .failed => False

/-- The invariant of a client. -/
structure Client.Sound (c : Client) : Prop where
  fits : ∀ call, c.activeCall = some call → call.Sound
  timed : ∀ call, c.activeCall = some call → call.state = .dialing → c.dialTimer = true
  cleaned : 0 < c.cleanupTimers → ∀ call, c.activeCall = some call → call.state = .ended

section

variable {c : Client} {call : ActiveCall}

theorem live_iff_phase : c.Live ↔ c.phase.Live := by
  obtain ⟨activeCall, dialTimer, cleanupTimers⟩ := c
  cases activeCall with
  | none => simp [Client.Live, Client.phase, Phase.Live]
  | some call =>
    cases state : call.state <;>
      simp [Client.Live, Client.phase, Phase.Live, CallState.phase, state]

theorem phase_of_some (here : c.activeCall = some call) : c.phase = call.state.phase := by
  rw [Client.phase, here]

theorem endCall_sound_of_some (here : c.activeCall = some call) (reason : CallEndReason) :
    (endCall c reason).2.Sound := by
  rw [endCall, here]
  constructor
  · rintro _ ⟨⟩
    exact rfl
  · rintro _ ⟨⟩ ⟨⟩
  · rintro _ _ ⟨⟩
    rfl

theorem endCall_sound (sound : c.Sound) (reason : CallEndReason) :
    (endCall c reason).2.Sound := by
  cases here : c.activeCall with
  | none =>
    rw [endCall, here]
    exact sound
  | some call => exact endCall_sound_of_some here reason

theorem endCall_phase (c : Client) (reason : CallEndReason) :
    (endCall c reason).2.phase = if c.phase = .absent then .absent else .finished := by
  obtain ⟨activeCall, dialTimer, cleanupTimers⟩ := c
  cases activeCall with
  | none => rfl
  | some call =>
    cases state : call.state <;> simp [endCall, Client.phase, CallState.phase, state]

theorem endCall_sent (c : Client) (reason : CallEndReason) :
    (endCall c reason).1 = if c.phase = .talking then [.hangup reason] else [] := by
  obtain ⟨activeCall, dialTimer, cleanupTimers⟩ := c
  cases activeCall with
  | none => rfl
  | some call =>
    cases state : call.state <;> simp [endCall, Client.phase, CallState.phase, state]

theorem ActiveCall.Sound.takes_iff (sound : call.Sound) :
    (call.peerConnection.takes .haveLocalOffer = true ↔ call.state = .dialing) ∧
    (call.peerConnection.takes .haveRemoteOffer = true ↔ call.state = .ringing) ∧
    (call.peerConnection.takes .stable = true ↔
      call.state.phase = .talking ∨ call.state.phase = .reconnecting) := by
  obtain ⟨direction, state, pc⟩ := call
  cases state <;> simp only [ActiveCall.Sound] at sound <;>
    simp [PeerConnection.takes, CallState.phase, sound]

theorem takes_eq {pc : PeerConnection} {signalingState : SignalingState}
    (takes : pc.takes signalingState = true) : pc = ⟨signalingState, false⟩ := by
  obtain ⟨state, closed⟩ := pc
  cases closed <;> simp_all [PeerConnection.takes]

theorem handleIncomingOffer_sound : (handleIncomingOffer Client.new).2.Sound := by
  constructor
  · rintro _ ⟨⟩
    exact ⟨rfl, rfl⟩
  · rintro _ ⟨⟩ ⟨⟩
  · exact fun pending => absurd pending (by decide)

theorem startCall_sound : (startCall Client.new).2.Sound := by
  constructor
  · rintro _ ⟨⟩
    exact ⟨rfl, rfl⟩
  · exact fun _ _ _ => rfl
  · exact fun pending => absurd pending (by decide)

/-- A call that goes on with an open connection. -/
theorem Client.Sound.change (sound : c.Sound) (here : c.activeCall = some call)
    (going : call.state ≠ .ended) {after : ActiveCall} (fits : after.Sound)
    (started : after.state ≠ .dialing) : Client.Sound { c with activeCall := some after } := by
  constructor
  · rintro _ ⟨⟩
    exact fits
  · rintro _ ⟨⟩ dialing
    exact absurd dialing started
  · exact fun pending => absurd (sound.cleaned pending call here) going

theorem handleAnswer_sound (sound : c.Sound) : (handleAnswer c).2.Sound := by
  rw [handleAnswer]
  split
  · exact sound
  · next call here =>
    split
    · next takes =>
      have dialing := (sound.fits call here).takes_iff.1.mp takes
      exact sound.change here (by rw [dialing]; decide) rfl (by simp)
    · exact sound

theorem acceptCall_sound (sound : c.Sound) : (acceptCall c).2.Sound := by
  rw [acceptCall]
  split
  · exact sound
  · next call here =>
    split
    · next takes =>
      have ringing := (sound.fits call here).takes_iff.2.1.mp takes.2
      exact sound.change here (by rw [ringing]; decide) rfl (by simp)
    · exact sound

theorem rejectCall_sound (sound : c.Sound) : (rejectCall c).2.Sound := by
  rw [rejectCall]
  split
  · exact sound
  · split
    · exact endCall_sound sound _
    · exact sound

theorem dialTimeout_sound (sound : c.Sound) : (dialTimeout c).2.Sound := by
  rw [dialTimeout]
  split
  · dsimp only
    split
    · next dialing =>
      obtain ⟨call, here, -⟩ := Option.map_eq_some_iff.mp dialing
      exact endCall_sound_of_some (c := { c with dialTimer := false }) here _
    · next other =>
      refine ⟨sound.fits, fun call here dialing => ?_, sound.cleaned⟩
      exact absurd (by rw [show c.activeCall = some call from here, ← dialing]; rfl) other
  · exact sound

theorem cleanup_sound (sound : c.Sound) : (cleanup c).2.Sound := by
  rw [cleanup]
  split
  · exact ⟨nofun, nofun, nofun⟩
  · exact sound

theorem onconnectionstatechange_sound (sound : c.Sound) (connectionState : ConnectionState) :
    (onconnectionstatechange c connectionState).2.Sound := by
  rw [onconnectionstatechange]
  split
  · exact sound
  · next call here =>
    split
    · next takes =>
      have open_pc := takes_eq takes
      have going : call.state ≠ .ended := by
        intro ended
        have talks := (sound.fits call here).takes_iff.2.2.mp takes
        rw [ended] at talks
        exact absurd talks (by decide)
      cases connectionState with
      | connected => exact sound.change here going open_pc (by simp)
      | disconnected | failed =>
        dsimp only
        split
        · exact sound.change here going open_pc (by simp)
        · exact sound
      | closed => exact endCall_sound sound _
    · exact sound

theorem act_sound (sound : c.Sound) (action : Action) : (c.act action).2.Sound := by
  cases action with
  | acceptCall => exact acceptCall_sound sound
  | rejectCall => exact rejectCall_sound sound
  | endCall reason => exact endCall_sound sound reason
  | dialTimeout => exact dialTimeout_sound sound
  | cleanup => exact cleanup_sound sound
  | onconnectionstatechange connectionState =>
    exact onconnectionstatechange_sound sound connectionState
  | onicecandidate => exact sound

/-- A message that changes no call. -/
def Plain (m : SignalingMessage) : Prop :=
  m ≠ .offer ∧ m ≠ .answer ∧ ∀ reason, m ≠ .hangup reason

/-- The phases before and after an action, and what is sent; `ends` where it calls `endCall`. -/
inductive Moves (ends : Prop) : Phase → List SignalingMessage → Phase → Prop
  | stays {p : Phase} {sent : List SignalingMessage} (plain : ∀ m ∈ sent, Plain m) :
    Moves ends p sent p
  | accepts : Moves ends .ringing [.answer] .talking
  | shifts {p q : Phase} (talks : p = .talking ∨ p = .reconnecting)
    (talks' : q = .talking ∨ q = .reconnecting) : Moves ends p [] q
  | hangsUp {notes : List SignalingMessage} {reason : CallEndReason}
    (plain : ∀ m ∈ notes, Plain m) : Moves ends .talking (notes ++ [.hangup reason]) .finished
  | leaves {p : Phase} {notes : List SignalingMessage} (ending : ends)
    (plain : ∀ m ∈ notes, Plain m) (quiet : p = .dialing ∨ p = .ringing ∨ p = .reconnecting) :
    Moves ends p notes .finished
  | forgets : Moves ends .finished [] .absent

theorem plain_nil : ∀ m ∈ ([] : List SignalingMessage), Plain m := List.forall_mem_nil _

theorem plain_reject : ∀ m ∈ [SignalingMessage.reject], Plain m := by simp [Plain]

theorem plain_iceCandidate : ∀ m ∈ [SignalingMessage.iceCandidate], Plain m := by simp [Plain]

theorem stays_same {ends : Prop} (p : Phase) : Moves ends p [] p := .stays plain_nil

theorem endCall_moves {ends : Prop} (ending : ends) (c : Client) (reason : CallEndReason)
    {notes : List SignalingMessage} (plain : ∀ m ∈ notes, Plain m) :
    Moves ends c.phase (notes ++ (endCall c reason).1) (endCall c reason).2.phase := by
  rw [endCall_phase, endCall_sent]
  cases c.phase with
  | absent | finished =>
    rw [if_neg (by decide), List.append_nil]
    exact .stays plain
  | talking => exact .hangsUp plain
  | dialing | ringing | reconnecting =>
    rw [if_neg (by decide), List.append_nil]
    exact .leaves ending plain (by simp)

theorem Moves.no_offer {ends : Prop} {p q : Phase} {sent : List SignalingMessage}
    (move : Moves ends p sent q) : SignalingMessage.offer ∉ sent := by
  cases move with
  | stays plain | leaves ending plain quiet => exact fun member => (plain _ member).1 rfl
  | accepts | shifts talks talks' | forgets => simp
  | hangsUp plain =>
    simpa using fun member => (plain _ member).1 rfl

theorem act_moves (sound : c.Sound) (action : Action) :
    Moves (action.Ends c) c.phase (c.act action).1 (c.act action).2.phase := by
  cases action with
  | acceptCall =>
    rw [Client.act, acceptCall]
    split
    · exact stays_same _
    · next call here =>
      split
      · next takes =>
        have ringing := (sound.fits call here).takes_iff.2.1.mp takes.2
        rw [phase_of_some here, ringing]
        exact .accepts
      · exact stays_same _
  | rejectCall =>
    rw [Client.act, rejectCall]
    split
    · exact stays_same _
    · next call here =>
      split
      · next incoming =>
        exact endCall_moves ⟨call, here, incoming⟩ c .remoteDeclined plain_reject
      · exact stays_same _
  | endCall reason => exact @endCall_moves True trivial c reason [] plain_nil
  | dialTimeout =>
    rw [Client.act, dialTimeout]
    split
    · next pending =>
      dsimp only
      split
      · next dialing =>
        exact endCall_moves ⟨pending, dialing⟩ { c with dialTimer := false } .timeout plain_nil
      · exact stays_same c.phase
    · exact stays_same _
  | cleanup =>
    rw [Client.act, cleanup]
    split
    · next pending =>
      cases here : c.activeCall with
      | none =>
        have absent : c.phase = .absent := by rw [Client.phase, here]
        rw [absent]
        exact stays_same .absent
      | some call =>
        rw [phase_of_some here, sound.cleaned pending call here]
        exact .forgets
    · exact stays_same _
  | onconnectionstatechange connectionState =>
    rw [Client.act, onconnectionstatechange]
    split
    · exact stays_same _
    · next call here =>
      split
      · next takes =>
        have talks := (sound.fits call here).takes_iff.2.2.mp takes
        rw [← phase_of_some here] at talks
        cases connectionState with
        | connected => exact .shifts talks (.inl rfl)
        | disconnected | failed =>
          dsimp only
          split
          · exact .shifts talks (.inr rfl)
          · exact stays_same _
        | closed => exact endCall_moves ⟨rfl, call, here, takes⟩ c .networkError plain_nil
      · exact stays_same _
  | onicecandidate => exact .stays plain_iceCandidate

/-- The phase of a client that has handled a message. -/
def Phase.handled : Phase → SignalingMessage → Phase
  | _, .offer => .ringing
  | .dialing, .answer => .talking
  | .absent, .hangup _ => .absent
  | _, .hangup _ => .finished
  | p, _ => p

/-- What a client sends back. -/
def Phase.replies : Phase → SignalingMessage → List SignalingMessage
  | .talking, .hangup reason => [.hangup reason]
  | _, _ => []

theorem offer_not_mem_replies (p : Phase) (m : SignalingMessage) :
    SignalingMessage.offer ∉ p.replies m := by
  cases p <;> cases m <;> simp [Phase.replies]

theorem handle_phase (sound : c.Sound) (m : SignalingMessage) :
    (handleSignalingMessage c m).2.phase = c.phase.handled m ∧
      (handleSignalingMessage c m).1 = c.phase.replies m := by
  cases m with
  | offer =>
    have nothing : c.phase.replies .offer = [] := by cases c.phase <;> rfl
    have rings : c.phase.handled .offer = .ringing := by cases c.phase <;> rfl
    rw [nothing, rings]
    exact ⟨rfl, rfl⟩
  | answer =>
    change (handleAnswer c).2.phase = _ ∧ (handleAnswer c).1 = _
    have silent : c.phase.replies .answer = [] := by cases c.phase <;> rfl
    rw [silent, handleAnswer]
    split
    · next absent =>
      have phase : c.phase = .absent := by rw [Client.phase, absent]
      rw [phase]
      exact ⟨rfl, rfl⟩
    · next call here =>
      have answers := (sound.fits call here).takes_iff.1
      split
      · next takes =>
        rw [phase_of_some here, answers.mp takes]
        exact ⟨rfl, rfl⟩
      · next refuses =>
        have other : call.state ≠ .dialing := fun dialing => refuses (answers.mpr dialing)
        refine ⟨?_, rfl⟩
        rw [phase_of_some here]
        cases state : call.state <;> first | rfl | exact absurd state other
  | hangup reason =>
    change (endCall c reason).2.phase = _ ∧ (endCall c reason).1 = _
    rw [endCall_phase, endCall_sent]
    cases c.phase <;> exact ⟨rfl, rfl⟩
  | iceCandidate | busy | reject | accept =>
    change c.phase = _ ∧ [] = _
    cases c.phase <;> exact ⟨rfl, rfl⟩

theorem handle_sound (sound : c.Sound) {m : SignalingMessage}
    (first : m = .offer → c = Client.new) : (handleSignalingMessage c m).2.Sound := by
  cases m with
  | offer =>
    rw [first rfl]
    exact handleIncomingOffer_sound
  | answer => exact handleAnswer_sound sound
  | hangup reason => exact endCall_sound sound reason
  | iceCandidate | busy | reject | accept => exact sound

theorem new_handles {m : SignalingMessage} (later : m ≠ .offer) :
    handleSignalingMessage Client.new m = ([], Client.new) := by
  cases m with
  | offer => exact absurd rfl later
  | answer | hangup | iceCandidate | busy | reject | accept => rfl

theorem new_acts (action : Action) :
    (Client.new.act action).2 = Client.new ∧ ∀ m ∈ (Client.new.act action).1, Plain m := by
  cases action with
  | onicecandidate => exact ⟨rfl, plain_iceCandidate⟩
  | acceptCall | rejectCall | endCall | dialTimeout | cleanup | onconnectionstatechange =>
    exact ⟨rfl, plain_nil⟩

theorem new_sound : Client.new.Sound := ⟨nofun, nofun, nofun⟩

end

end CallSignaling
