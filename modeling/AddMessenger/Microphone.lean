import AddMessenger.CallSignaling
import Mathlib.Data.List.AList

/-!
# The microphone and the calls

`desktop-ui/src/services/webRTCCalling.ts`, one step from one `await` to the next: who holds
the local stream while calls are set up, answered and ended side by side. A promise that is
awaited can be kept or broken at any time, and a timer that is set can fire at any time.
-/

namespace Microphone

open CallSignaling (CallState CallDirection ConnectionState)

structure ActiveCall where
  callId : String
  direction : CallDirection
  state : CallState
  localStream : ℕ
  deriving DecidableEq

/-- What a call that is being set up waits for, once it has its stream. -/
inductive Awaited where
  | localStream (direction : CallDirection)
  | createOffer
  | setLocalDescription
  | setRemoteDescription
  deriving DecidableEq

/-- A run of `startCall` or of `handleIncomingOffer`, before its call is among the others. -/
inductive Setup where
  | requesting (direction : CallDirection) (callId : String)
  | holding (callId : String) (stream : ℕ) (awaited : Awaited)
  deriving DecidableEq

def Setup.stream : Setup → Option ℕ
  | .requesting _ _ => none
  | .holding _ stream _ => some stream

/-- What else is awaited: the offer, the reject or the hangup to be sent, and the descriptions
of `acceptCall` and `handleAnswer`. A call is given by its place in the list of all of them. -/
inductive Pending where
  | offer (callId : String)
  | createAnswer (call : ℕ)
  | setLocalDescription (call : ℕ)
  | setRemoteDescription (call : ℕ)
  | reject (callId : String)
  | hangup (callId : String) (call : ℕ)
  deriving DecidableEq

abbrev Calls := AList fun _ : String => ℕ

/-- The streams that the service has acquired, numbered as they come: which one it holds, and
whose tracks are stopped. -/
structure Streams where
  localStream : Option ℕ
  acquired : ℕ
  stopped : List ℕ
  local_on : ∀ stream ∈ localStream, stream ∉ stopped ∧ stream < acquired
  stopped_lt : ∀ stream ∈ stopped, stream < acquired

namespace Streams

/-- `getUserMedia` has given a stream. -/
def acquire (m : Streams) : Streams where
  localStream := some m.acquired
  acquired := m.acquired + 1
  stopped := m.stopped
  local_on := by
    rintro stream ⟨⟩
    exact ⟨fun stopped => Nat.lt_irrefl _ (m.stopped_lt _ stopped), Nat.lt_succ_self _⟩
  stopped_lt stream stopped := Nat.lt_succ_of_lt (m.stopped_lt stream stopped)

/-- The tracks are stopped and the stream is given up, if there is one. -/
def release (m : Streams) : Streams where
  localStream := none
  acquired := m.acquired
  stopped := m.localStream.toList ++ m.stopped
  local_on := nofun
  stopped_lt stream stopped := by
    rcases List.mem_append.mp stopped with held | stopped
    · exact (m.local_on stream (Option.mem_toList.mp held)).2
    · exact m.stopped_lt stream stopped

/-- The microphone is off. -/
def Released (m : Streams) : Prop :=
  m.localStream = none ∧ ∀ stream < m.acquired, stream ∈ m.stopped

end Streams

structure Service where
  objects : List ActiveCall
  activeCalls : Calls
  streams : Streams
  setups : List Setup
  pending : List Pending
  dialTimers : List String
  cleanupTimers : List String

def atLoad : Service := ⟨[], ∅, ⟨none, 0, [], nofun, nofun⟩, [], [], [], []⟩

namespace Service

def setState (s : Service) (call : ℕ) (state : CallState) : Service :=
  { s with objects := s.objects.modify call fun call => { call with state } }

def await (s : Service) (promise : Pending) : Service :=
  { s with pending := s.pending ++ [promise] }

def find (s : Service) (callId : String) : Option (ℕ × ActiveCall) :=
  (s.activeCalls.lookup callId).bind fun call => s.objects[call]?.map (call, ·)

/-- The call is among the others. -/
def enter (s : Service) (callId : String) (direction : CallDirection) (state : CallState)
    (stream : ℕ) : Service :=
  { s with
    objects := s.objects ++ [⟨callId, direction, state, stream⟩]
    activeCalls := s.activeCalls.insert callId s.objects.length }

end Service

/-- `getLocalStream`, for a call in that direction. -/
def getLocalStream (s : Service) (direction : CallDirection) (callId : String) : Service :=
  match s.streams.localStream with
  | some stream =>
    { s with setups := s.setups ++ [.holding callId stream (.localStream direction)] }
  | none => { s with setups := s.setups ++ [.requesting direction callId] }

def startCall (s : Service) (callId : String) : Service := getLocalStream s .outgoing callId

def handleIncomingOffer (s : Service) (callId : String) : Service :=
  getLocalStream s .incoming callId

/-- What the run at that place waits for is there. -/
def setupResumes (s : Service) (i : ℕ) : Service :=
  match s.setups[i]? with
  | none => s
  | some (.requesting direction callId) =>
    { s with
      streams := s.streams.acquire
      setups := s.setups.set i (.holding callId s.streams.acquired (.localStream direction)) }
  | some (.holding callId stream awaited) =>
    match awaited with
    | .localStream .outgoing =>
      { s with setups := s.setups.set i (.holding callId stream .createOffer) }
    | .localStream .incoming =>
      { s with setups := s.setups.set i (.holding callId stream .setRemoteDescription) }
    | .createOffer =>
      { s with setups := s.setups.set i (.holding callId stream .setLocalDescription) }
    | .setLocalDescription =>
      ({ s with setups := s.setups.eraseIdx i }.enter callId .outgoing .dialing stream).await
        (.offer callId)
    | .setRemoteDescription =>
      { s with setups := s.setups.eraseIdx i }.enter callId .incoming .ringing stream

/-- What it waits for is refused, and the run throws. -/
def setupThrows (s : Service) (i : ℕ) : Service := { s with setups := s.setups.eraseIdx i }

/-- The rest of `endCall`, once the hangup is sent or if there is none to be sent. -/
def cleanUp (s : Service) (callId : String) (call : ℕ) : Service :=
  let s :=
    if s.activeCalls.entries.length ≤ 1 then { s with streams := s.streams.release } else s
  let s := s.setState call .ended
  { s with cleanupTimers := callId :: s.cleanupTimers }

/-- Every operation also gives the call that an `endCall` has ended, if one has. -/
abbrev Ends := Option ℕ × Service

def endCall (s : Service) (callId : String) : Ends :=
  match s.find callId with
  | none => (none, s)
  | some (call, object) =>
    if object.state = .active ∨ object.state = .connecting then
      (none, s.await (.hangup callId call))
    else (some call, cleanUp s callId call)

def handleAnswer (s : Service) (callId : String) : Service :=
  match s.activeCalls.lookup callId with
  | none => s
  | some call => s.await (.setRemoteDescription call)

/-- It throws if there is no such incoming call. -/
def acceptCall (s : Service) (callId : String) : Service :=
  match s.find callId with
  | none => s
  | some (call, object) =>
    if object.direction = .incoming then s.await (.createAnswer call) else s

def rejectCall (s : Service) (callId : String) : Service :=
  match s.find callId with
  | none => s
  | some (_, object) => if object.direction = .incoming then s.await (.reject callId) else s

/-- The promise at that place is kept. -/
def resumes (s : Service) (i : ℕ) : Ends :=
  let rest := { s with pending := s.pending.eraseIdx i }
  match s.pending[i]? with
  | none => (none, s)
  | some (.offer callId) => (none, { rest with dialTimers := callId :: rest.dialTimers })
  | some (.createAnswer call) => (none, rest.await (.setLocalDescription call))
  | some (.setLocalDescription call) => (none, rest.setState call .connecting)
  | some (.setRemoteDescription call) => (none, rest.setState call .connecting)
  | some (.reject callId) => endCall rest callId
  | some (.hangup callId call) => (some call, cleanUp rest callId call)

/-- The promise at that place is broken. Sending catches what it throws. -/
def throws (s : Service) (i : ℕ) : Service :=
  match s.pending[i]? with
  | some (.createAnswer _) | some (.setLocalDescription _) | some (.setRemoteDescription _) =>
    { s with pending := s.pending.eraseIdx i }
  | _ => s

def dialTimeout (s : Service) (callId : String) : Ends :=
  if callId ∈ s.dialTimers then
    let s := { s with dialTimers := s.dialTimers.erase callId }
    if (s.find callId).any fun found => found.2.state = .dialing then endCall s callId
    else (none, s)
  else (none, s)

/-- The timer of `endCall` fires. -/
def cleanup (s : Service) (callId : String) : Service :=
  if callId ∈ s.cleanupTimers then
    { s with
      activeCalls := s.activeCalls.erase callId
      cleanupTimers := s.cleanupTimers.erase callId }
  else s

def ontrack (s : Service) (callId : String) : Service :=
  match s.activeCalls.lookup callId with
  | none => s
  | some call => s.setState call .active

def onconnectionstatechange (s : Service) (callId : String) (connectionState : ConnectionState) :
    Ends :=
  match s.find callId with
  | none => (none, s)
  | some (call, object) =>
    match connectionState with
    | .connected =>
      (none, if object.state ≠ .active then s.setState call .active else s)
    | .disconnected | .failed =>
      (none, if object.state = .active then s.setState call .reconnecting else s)
    | .closed => endCall s callId

/-- `handleHangup` is `endCall`. -/
inductive Event where
  | startCall (callId : String)
  | handleIncomingOffer (callId : String)
  | setupResumes (i : ℕ)
  | setupThrows (i : ℕ)
  | handleAnswer (callId : String)
  | acceptCall (callId : String)
  | rejectCall (callId : String)
  | endCall (callId : String)
  | resumes (i : ℕ)
  | throws (i : ℕ)
  | dialTimeout (callId : String)
  | cleanup (callId : String)
  | ontrack (callId : String)
  | onconnectionstatechange (callId : String) (connectionState : ConnectionState)

def step (s : Service) : Event → Ends
  | .startCall callId => (none, startCall s callId)
  | .handleIncomingOffer callId => (none, handleIncomingOffer s callId)
  | .setupResumes i => (none, setupResumes s i)
  | .setupThrows i => (none, setupThrows s i)
  | .handleAnswer callId => (none, handleAnswer s callId)
  | .acceptCall callId => (none, acceptCall s callId)
  | .rejectCall callId => (none, rejectCall s callId)
  | .endCall callId => endCall s callId
  | .resumes i => resumes s i
  | .throws i => (none, throws s i)
  | .dialTimeout callId => dialTimeout s callId
  | .cleanup callId => (none, cleanup s callId)
  | .ontrack callId => (none, ontrack s callId)
  | .onconnectionstatechange callId connectionState =>
    onconnectionstatechange s callId connectionState

def isLive : CallState → Bool
  | .idle | .ended | .failed => false
  | _ => true

namespace Service

/-- By a live call, or by one that is being set up. -/
def InUse (s : Service) (stream : ℕ) : Prop :=
  (∃ call ∈ s.objects, isLive call.state = true ∧ call.localStream = stream) ∨
    ∃ setup ∈ s.setups, setup.stream = some stream

/-- No stopped stream is in use. -/
def Held (s : Service) : Prop := ∀ stream ∈ s.streams.stopped, ¬ s.InUse stream

def SomeLive (s : Service) : Prop := ∃ call ∈ s.objects, isLive call.state = true

end Service

instance (s : Service) (stream : ℕ) : Decidable (s.InUse stream) :=
  inferInstanceAs (Decidable (_ ∨ _))

instance (s : Service) : Decidable s.Held := inferInstanceAs (Decidable (∀ _ ∈ _, _))

instance (s : Service) : Decidable s.SomeLive := inferInstanceAs (Decidable (∃ _ ∈ _, _))

instance (m : Streams) : Decidable m.Released := inferInstanceAs (Decidable (_ ∧ _))

/-- In this step no stream is stopped that is in use, and if it ends the last live call, the
microphone is off. -/
def Right (s : Service) (e : Event) : Prop :=
  (step s e).2.Held ∧
    ((step s e).1.isSome → ¬ (step s e).2.SomeLive → (step s e).2.streams.Released)

instance (s : Service) (e : Event) : Decidable (Right s e) := inferInstanceAs (Decidable (_ ∧ _))

namespace Service

def InUseBesides (s : Service) (call stream : ℕ) : Prop :=
  (∃ other, other ≠ call ∧ ∃ object, s.objects[other]? = some object ∧
      isLive object.state = true ∧ object.localStream = stream) ∨
    ∃ setup ∈ s.setups, setup.stream = some stream

def LiveBesides (s : Service) (call : ℕ) : Prop :=
  ∃ other, other ≠ call ∧ ∃ object, s.objects[other]? = some object ∧
    isLive object.state = true

/-- Of the end of a call. If no entry is left but one, the stream is used by no other call, and
was the only one that was on unless another call is live. If there are more entries, another
call is live or the microphone is off. -/
def SparesCleanUp (s : Service) (call : ℕ) : Prop :=
  if s.activeCalls.entries.length ≤ 1 then
    (∀ stream ∈ s.streams.localStream, ¬ s.InUseBesides call stream) ∧
      (s.LiveBesides call ∨
        ∀ stream < s.streams.acquired, s.streams.localStream ≠ some stream →
          stream ∈ s.streams.stopped)
  else s.LiveBesides call ∨ s.streams.Released

def SparesEnd (s : Service) (callId : String) : Prop :=
  ∀ found ∈ s.find callId, found.2.state ≠ .active → found.2.state ≠ .connecting →
    s.SparesCleanUp found.1

/-- Of a call that becomes live: its stream is not stopped. -/
def SparesLive (s : Service) (call : ℕ) : Prop :=
  ∀ object, s.objects[call]? = some object → object.localStream ∉ s.streams.stopped

end Service

def Spares (s : Service) : Event → Prop
  | .endCall callId => s.SparesEnd callId
  | .resumes i =>
    match s.pending[i]? with
    | some (.setLocalDescription call) | some (.setRemoteDescription call) => s.SparesLive call
    | some (.reject callId) => s.SparesEnd callId
    | some (.hangup _ call) => s.SparesCleanUp call
    | _ => True
  | .dialTimeout callId =>
    callId ∈ s.dialTimers → (s.find callId).any (fun found => found.2.state = .dialing) →
      s.SparesEnd callId
  | .ontrack callId => ∀ call ∈ s.activeCalls.lookup callId, s.SparesLive call
  | .onconnectionstatechange callId .connected => ∀ found ∈ s.find callId, s.SparesLive found.1
  | .onconnectionstatechange callId .closed => s.SparesEnd callId
  | _ => True

variable {s : Service} {call stream : ℕ} {callId : String}

theorem mem_setState {state : CallState} {object : ActiveCall} :
    object ∈ (s.setState call state).objects ↔
      (∃ before, s.objects[call]? = some before ∧ object = { before with state }) ∨
        ∃ other, other ≠ call ∧ s.objects[other]? = some object := by
  simp only [Service.setState, List.mem_iff_getElem?]
  constructor
  · rintro ⟨i, there⟩
    by_cases here : call = i
    · subst here
      rw [List.getElem?_modify_eq] at there
      obtain ⟨before, isBefore, rfl⟩ := Option.map_eq_some_iff.mp there
      exact .inl ⟨before, isBefore, rfl⟩
    · rw [List.getElem?_modify_ne _ _ here] at there
      exact .inr ⟨i, Ne.symm here, there⟩
  · rintro (⟨before, isBefore, rfl⟩ | ⟨other, ne, there⟩)
    · exact ⟨call, by rw [List.getElem?_modify_eq, isBefore]; rfl⟩
    · exact ⟨other, by rw [List.getElem?_modify_ne _ _ (Ne.symm ne), there]⟩

theorem inUse_of_besides (besides : s.InUseBesides call stream) : s.InUse stream := by
  rcases besides with ⟨other, -, object, there, live, same⟩ | setup
  · exact .inl ⟨object, List.mem_of_getElem? there, live, same⟩
  · exact .inr setup

theorem inUse_ended : (s.setState call .ended).InUse stream ↔ s.InUseBesides call stream := by
  refine or_congr ?_ Iff.rfl
  simp only [mem_setState]
  constructor
  · rintro ⟨object, ⟨before, -, rfl⟩ | ⟨other, ne, there⟩, live, same⟩
    · cases live
    · exact ⟨other, ne, object, there, live, same⟩
  · rintro ⟨other, ne, object, there, live, same⟩
    exact ⟨object, .inr ⟨other, ne, there⟩, live, same⟩

theorem someLive_ended : (s.setState call .ended).SomeLive ↔ s.LiveBesides call := by
  simp only [Service.SomeLive, mem_setState]
  constructor
  · rintro ⟨object, ⟨before, -, rfl⟩ | ⟨other, ne, there⟩, live⟩
    · cases live
    · exact ⟨other, ne, object, there, live⟩
  · rintro ⟨other, ne, object, there, live⟩
    exact ⟨object, .inr ⟨other, ne, there⟩, live⟩

/-- A call that becomes live has to have a stream that is on. -/
theorem held_setState_iff (held : s.Held) {state : CallState} (live : isLive state = true) :
    (s.setState call state).Held ↔ s.SparesLive call := by
  constructor
  · intro held' object there stopped
    refine held' _ stopped (.inl ⟨{ object with state }, mem_setState.mpr ?_, live, rfl⟩)
    exact .inl ⟨object, there, rfl⟩
  · rintro spares stream stopped (⟨object, member, isLive, same⟩ | setup)
    · rcases mem_setState.mp member with ⟨before, there, rfl⟩ | ⟨other, -, there⟩
      · exact spares before there (same ▸ stopped)
      · exact held stream stopped (.inl ⟨object, List.mem_of_getElem? there, isLive, same⟩)
    · exact held stream stopped (.inr setup)

theorem mem_release {m : Streams} :
    stream ∈ m.release.stopped ↔ m.localStream = some stream ∨ stream ∈ m.stopped := by
  rw [Streams.release, List.mem_append, Option.mem_toList]

theorem cleanUp_iff (held : s.Held) (callId : String) (call : ℕ) :
    (cleanUp s callId call).Held ∧
        (¬ (cleanUp s callId call).SomeLive → (cleanUp s callId call).streams.Released) ↔
      s.SparesCleanUp call := by
  have someLive : (cleanUp s callId call).SomeLive ↔ s.LiveBesides call := by
    rw [← someLive_ended, cleanUp]
    split <;> exact Iff.rfl
  have inUse : ∀ stream, (cleanUp s callId call).InUse stream ↔ s.InUseBesides call stream := by
    intro stream
    rw [← inUse_ended, cleanUp]
    split <;> exact Iff.rfl
  have streams : (cleanUp s callId call).streams =
      if s.activeCalls.entries.length ≤ 1 then s.streams.release else s.streams := by
    rw [cleanUp]
    split <;> rfl
  have kept : ∀ stream ∈ s.streams.stopped, ¬ s.InUseBesides call stream :=
    fun stream stopped besides => held stream stopped (inUse_of_besides besides)
  simp only [Service.Held, someLive, inUse, streams, Service.SparesCleanUp, ← or_iff_not_imp_left]
  split
  · refine and_congr ?_ (or_congr_right ?_)
    · simp only [mem_release]
      constructor
      · exact fun held' stream isLocal => held' stream (.inl isLocal)
      · rintro spares stream (isLocal | stopped)
        · exact spares stream isLocal
        · exact kept stream stopped
    · simp only [Streams.Released, mem_release, or_iff_not_imp_left]
      exact and_iff_right rfl
  · exact and_iff_right kept

theorem endCall_iff (held : s.Held) (callId : String) :
    (endCall s callId).2.Held ∧ ((endCall s callId).1.isSome → ¬ (endCall s callId).2.SomeLive →
        (endCall s callId).2.streams.Released) ↔ s.SparesEnd callId := by
  rw [Service.SparesEnd, endCall]
  cases found : s.find callId with
  | none => exact iff_of_true ⟨held, nofun⟩ nofun
  | some entry =>
    obtain ⟨call, object⟩ := entry
    simp only [Option.mem_some_iff, forall_eq']
    split
    · next awaits =>
      refine iff_of_true ⟨held, nofun⟩ fun notActive notConnecting => ?_
      exact absurd awaits (not_or.mpr ⟨notActive, notConnecting⟩)
    · next ends =>
      obtain ⟨notActive, notConnecting⟩ := not_or.mp ends
      rw [← cleanUp_iff held callId call]
      simp [notActive, notConnecting]

theorem held_of_inUse {s' : Service} (held : s.Held)
    (uses : ∀ stream, s'.InUse stream → stream ∈ s'.streams.stopped →
      s.InUse stream ∧ stream ∈ s.streams.stopped) : s'.Held := fun stream stopped inUse =>
  have ⟨before, stopped⟩ := uses stream inUse stopped
  held stream stopped before

theorem held_getLocalStream (held : s.Held) (direction : CallDirection) (callId : String) :
    (getLocalStream s direction callId).Held := by
  rw [getLocalStream]
  split
  · next found =>
    refine held_of_inUse held fun stream inUse stopped => ⟨?_, stopped⟩
    rcases inUse with object | ⟨setup, member, same⟩
    · exact .inl object
    · rcases List.mem_append.mp member with member | member
      · exact .inr ⟨setup, member, same⟩
      · rw [List.mem_singleton.mp member] at same
        exact absurd stopped (s.streams.local_on stream (found.trans same)).1
  · refine held_of_inUse held fun stream inUse stopped => ⟨?_, stopped⟩
    rcases inUse with object | ⟨setup, member, same⟩
    · exact .inl object
    · rcases List.mem_append.mp member with member | member
      · exact .inr ⟨setup, member, same⟩
      · rw [List.mem_singleton.mp member] at same
        cases same

/-- The run goes on with the same stream. -/
theorem held_set {i : ℕ} {setup : Setup} (held : s.Held) (there : s.setups[i]? = some setup)
    {after : Setup} (same : after.stream = setup.stream) :
    { s with setups := s.setups.set i after }.Held := by
  refine held_of_inUse held fun stream inUse stopped => ⟨?_, stopped⟩
  rcases inUse with object | ⟨other, member, uses⟩
  · exact .inl object
  · rcases List.mem_or_eq_of_mem_set member with member | rfl
    · exact .inr ⟨other, member, uses⟩
    · exact .inr ⟨setup, List.mem_of_getElem? there, same ▸ uses⟩

/-- The call that enters has the stream that its run has held. -/
theorem held_enter {i : ℕ} {awaited : Awaited} (held : s.Held)
    (there : s.setups[i]? = some (.holding callId stream awaited)) (direction : CallDirection)
    (state : CallState) :
    ({ s with setups := s.setups.eraseIdx i }.enter callId direction state stream).Held := by
  refine held_of_inUse held fun used inUse stopped => ⟨?_, stopped⟩
  rcases inUse with ⟨object, member, live, same⟩ | ⟨setup, member, same⟩
  · rcases List.mem_append.mp member with member | member
    · exact .inl ⟨object, member, live, same⟩
    · rw [List.mem_singleton.mp member] at same
      exact .inr ⟨_, List.mem_of_getElem? there, congrArg some same⟩
  · exact .inr ⟨setup, List.mem_of_mem_eraseIdx member, same⟩

theorem held_setupThrows (held : s.Held) (i : ℕ) : (setupThrows s i).Held := by
  refine held_of_inUse held fun used inUse stopped => ⟨?_, stopped⟩
  rcases inUse with object | ⟨setup, member, same⟩
  · exact .inl object
  · exact .inr ⟨setup, List.mem_of_mem_eraseIdx member, same⟩

theorem held_setupResumes (held : s.Held) (i : ℕ) : (setupResumes s i).Held := by
  rw [setupResumes]
  cases there : s.setups[i]? with
  | none => exact held
  | some setup =>
    cases setup with
    | requesting direction callId =>
      refine held_of_inUse held fun stream inUse stopped => ⟨?_, stopped⟩
      rcases inUse with object | ⟨setup, member, same⟩
      · exact .inl object
      · rcases List.mem_or_eq_of_mem_set member with member | rfl
        · exact .inr ⟨setup, member, same⟩
        · -- the stream is new
          obtain rfl := Option.some.inj same
          exact absurd (s.streams.stopped_lt _ stopped) (Nat.lt_irrefl _)
    | holding callId stream awaited =>
      cases awaited with
      | localStream direction =>
        cases direction with
        | outgoing => exact held_set held there rfl
        | incoming => exact held_set held there rfl
      | createOffer => exact held_set held there rfl
      | setLocalDescription => exact held_enter held there .outgoing .dialing
      | setRemoteDescription => exact held_enter held there .incoming .ringing

theorem right_iff_of_quiet {e : Event} {s' : Service} (quiet : step s e = (none, s')) :
    Right s e ↔ s'.Held := by
  rw [Right, quiet]
  exact and_iff_left nofun

theorem resumes_iff (held : s.Held) (i : ℕ) : Right s (.resumes i) ↔ Spares s (.resumes i) := by
  rw [Right, step, resumes, Spares]
  cases s.pending[i]? with
  | none => exact iff_of_true ⟨held, nofun⟩ trivial
  | some promise =>
    cases promise with
    | offer callId => exact iff_of_true ⟨held, nofun⟩ trivial
    | createAnswer call => exact iff_of_true ⟨held, nofun⟩ trivial
    | setLocalDescription call =>
      exact (and_iff_left nofun).trans
        (@held_setState_iff { s with pending := s.pending.eraseIdx i } _ held _ rfl)
    | setRemoteDescription call =>
      exact (and_iff_left nofun).trans
        (@held_setState_iff { s with pending := s.pending.eraseIdx i } _ held _ rfl)
    | reject callId => exact @endCall_iff { s with pending := s.pending.eraseIdx i } held callId
    | hangup callId call =>
      refine Iff.trans ?_ (@cleanUp_iff { s with pending := s.pending.eraseIdx i } held callId call)
      exact and_congr_right fun _ => ⟨fun ends => ends rfl, fun ends _ => ends⟩

theorem dialTimeout_iff (held : s.Held) (callId : String) :
    Right s (.dialTimeout callId) ↔ Spares s (.dialTimeout callId) := by
  rw [Right, step, dialTimeout, Spares]
  split
  · next isSet =>
    dsimp only
    split
    · next dialing =>
      refine (@endCall_iff { s with dialTimers := s.dialTimers.erase callId } held callId).trans ?_
      exact ⟨fun spares _ _ => spares, fun spares => spares isSet dialing⟩
    · next other => exact iff_of_true ⟨held, nofun⟩ fun _ dialing => absurd dialing other
  · next notSet => exact iff_of_true ⟨held, nofun⟩ fun isSet => absurd isSet notSet

theorem sparesLive_of_live (held : s.Held) {object : ActiveCall}
    (there : s.objects[call]? = some object) (live : isLive object.state = true) :
    s.SparesLive call := by
  intro same found stopped
  obtain rfl := Option.some.inj (there.symm.trans found)
  exact held _ stopped (.inl ⟨object, List.mem_of_getElem? there, live, rfl⟩)

theorem find_eq_some {object : ActiveCall} (found : s.find callId = some (call, object)) :
    s.objects[call]? = some object := by
  obtain ⟨r, -, found⟩ := Option.bind_eq_some_iff.mp found
  obtain ⟨same, there, pair⟩ := Option.map_eq_some_iff.mp found
  cases pair
  exact there

theorem held_reconnecting (held : s.Held) {object : ActiveCall}
    (there : s.objects[call]? = some object) :
    (if object.state = .active then s.setState call .reconnecting else s).Held := by
  split
  · next active =>
    exact (held_setState_iff held rfl).mpr (sparesLive_of_live held there (by rw [active]; rfl))
  · exact held

theorem onconnectionstatechange_iff (held : s.Held) (callId : String)
    (connectionState : ConnectionState) :
    Right s (.onconnectionstatechange callId connectionState) ↔
      Spares s (.onconnectionstatechange callId connectionState) := by
  rw [Right, step, onconnectionstatechange]
  cases found : s.find callId with
  | none =>
    refine iff_of_true ⟨held, nofun⟩ ?_
    cases connectionState with
    | connected => exact fun entry isEntry => nomatch found.symm.trans isEntry
    | disconnected => trivial
    | failed => trivial
    | closed => exact fun entry isEntry => nomatch found.symm.trans isEntry
  | some entry =>
    obtain ⟨call, object⟩ := entry
    have there := find_eq_some found
    cases connectionState with
    | connected =>
      refine (and_iff_left nofun).trans ?_
      simp only [Spares, found, Option.mem_some_iff, forall_eq']
      split
      · exact held_setState_iff held rfl
      · next active =>
        refine iff_of_true held (sparesLive_of_live held there ?_)
        rw [not_not.mp active]
        rfl
    | disconnected => exact iff_of_true ⟨held_reconnecting held there, nofun⟩ trivial
    | failed => exact iff_of_true ⟨held_reconnecting held there, nofun⟩ trivial
    | closed => exact endCall_iff held callId

theorem right_iff (held : s.Held) (e : Event) : Right s e ↔ Spares s e := by
  cases e with
  | startCall callId =>
    exact (right_iff_of_quiet rfl).trans (iff_of_true (held_getLocalStream held _ _) trivial)
  | handleIncomingOffer callId =>
    exact (right_iff_of_quiet rfl).trans (iff_of_true (held_getLocalStream held _ _) trivial)
  | setupResumes i =>
    exact (right_iff_of_quiet rfl).trans (iff_of_true (held_setupResumes held i) trivial)
  | setupThrows i =>
    exact (right_iff_of_quiet rfl).trans (iff_of_true (held_setupThrows held i) trivial)
  | handleAnswer callId =>
    refine (right_iff_of_quiet rfl).trans (iff_of_true ?_ trivial)
    rw [handleAnswer]
    split <;> exact held
  | acceptCall callId =>
    refine (right_iff_of_quiet rfl).trans (iff_of_true ?_ trivial)
    rw [acceptCall]
    split
    · exact held
    · split <;> exact held
  | rejectCall callId =>
    refine (right_iff_of_quiet rfl).trans (iff_of_true ?_ trivial)
    rw [rejectCall]
    split
    · exact held
    · split <;> exact held
  | endCall callId => exact endCall_iff held callId
  | resumes i => exact resumes_iff held i
  | throws i =>
    refine (right_iff_of_quiet rfl).trans (iff_of_true ?_ trivial)
    rw [throws]
    split <;> exact held
  | dialTimeout callId => exact dialTimeout_iff held callId
  | cleanup callId =>
    refine (right_iff_of_quiet rfl).trans (iff_of_true ?_ trivial)
    rw [cleanup]
    split <;> exact held
  | ontrack callId =>
    refine (right_iff_of_quiet rfl).trans ?_
    rw [ontrack, Spares]
    cases s.activeCalls.lookup callId with
    | none => exact iff_of_true held nofun
    | some call =>
      simp only [Option.mem_some_iff, forall_eq']
      exact held_setState_iff held rfl
  | onconnectionstatechange callId connectionState =>
    exact onconnectionstatechange_iff held callId connectionState

theorem held_atLoad : atLoad.Held := nofun

/-- The microphone follows the calls exactly in the runs in which no call becomes live on a
stopped stream and every end of a call is one that `SparesCleanUp` describes. -/
theorem microphone_follows_iff (events : List Event) :
    (∀ front e back, events = front ++ e :: back →
        Right (Mealy.final step atLoad front) e) ↔
      Mealy.Along step Spares atLoad events := by
  rw [← Mealy.along_iff_split]
  exact Mealy.along_congr_of_kept Service.Held (fun s e held => right_iff held e)
    (fun s e _ right => right.1) held_atLoad events

/-- A call is set up to the end. -/
def enters (callId : String) (resumes : ℕ) : List Event :=
  .startCall callId :: List.replicate resumes (.setupResumes 0)

/-- Two calls ended within a second leave the microphone on; a call that is being set up loses
it to the end of another; and of two calls that are started at once one keeps it. -/
theorem microphone_leaks :
    (¬ ∀ front e back, enters "a" 4 ++ enters "b" 3 ++ [.endCall "a", .endCall "b"] =
        front ++ e :: back → Right (Mealy.final step atLoad front) e) ∧
      (¬ ∀ front e back, enters "a" 4 ++ enters "b" 1 ++ [.endCall "a"] =
        front ++ e :: back → Right (Mealy.final step atLoad front) e) ∧
      ¬ ∀ front e back, .startCall "a" :: .startCall "b" :: .setupResumes 1 ::
            List.replicate 7 (.setupResumes 0) ++
            [.endCall "a", .cleanup "a", .endCall "b"] =
        front ++ e :: back → Right (Mealy.final step atLoad front) e := by
  refine ⟨fun follows => ?_, fun follows => ?_, fun follows => ?_⟩
  · exact absurd (follows (enters "a" 4 ++ enters "b" 3 ++ [.endCall "a"]) (.endCall "b") [] rfl)
      (by decide +kernel)
  · exact absurd (follows (enters "a" 4 ++ enters "b" 1) (.endCall "a") [] rfl)
      (by decide +kernel)
  · exact absurd (follows (.startCall "a" :: .startCall "b" :: .setupResumes 1 ::
        List.replicate 7 (.setupResumes 0) ++ [.endCall "a", .cleanup "a"]) (.endCall "b") [] rfl)
      (by decide +kernel)

end Microphone
