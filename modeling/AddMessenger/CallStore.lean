import AddMessenger.CallSignaling
import Mathlib.Data.List.AList

/-!
# The calls of the store and of the service

`desktop-ui/src/store/callStore.ts` over `desktop-ui/src/services/webRTCCalling.ts`. Both keep
a map from call ids to calls, and a map holds references: what the service writes into a call is
seen by the store as long as the store holds the same object. A call is given by the object's
place in the list of all of them. An operation and the handling of a message take effect at once.
-/

namespace CallStore

open CallSignaling (CallState CallDirection ConnectionState SignalingMessage)

structure ActiveCall where
  callId : String
  peerId : String
  direction : CallDirection
  state : CallState
  deriving DecidableEq

abbrev Calls := AList fun _ : String => ℕ

/-- The timers are those of `startCall` and of `endCall` that have not fired, by call id. -/
structure Service where
  activeCalls : Calls
  dialTimers : List String
  cleanupTimers : List String

structure Store where
  calls : Calls
  incomingCall : Option ℕ
  isInCall : Bool
  currentCallId : Option String

structure System where
  objects : List ActiveCall
  service : Service
  store : Store

def atLoad : System := ⟨[], ⟨∅, [], []⟩, ⟨∅, none, false, none⟩⟩

def ActiveCall.inCall (call : ActiveCall) : Bool :=
  call.state = .active || call.state = .connecting

namespace System

def get (s : System) (calls : Calls) (callId : String) : Option ActiveCall :=
  (calls.lookup callId).bind (s.objects[·]?)

/-- `Array.from(calls.values()).some(..)` -/
def someInCall (s : System) (calls : Calls) : Bool :=
  calls.entries.any fun entry => (s.objects[entry.2]?).any ActiveCall.inCall

def alloc (s : System) (call : ActiveCall) : ℕ × System :=
  (s.objects.length, { s with objects := s.objects ++ [call] })

def setState (s : System) (call : ℕ) (state : CallState) : System :=
  { s with objects := s.objects.modify call fun call => { call with state } }

def setActive (s : System) (callId : String) (call : ℕ) : System :=
  { s with service := { s.service with activeCalls := s.service.activeCalls.insert callId call } }

def takeDialTimer (s : System) (callId : String) : System :=
  { s with service := { s.service with dialTimers := s.service.dialTimers.erase callId } }

end System

/-- Nobody calls `subscribeToCallState`. The store sets `onCallStateChange` at load, and nobody
calls that. -/
def callStateListeners : List (System → ℕ → System) := []

def notifyCallStateChange (s : System) (call : ℕ) : System :=
  callStateListeners.foldl (fun s listener => listener s call) s

@[simp] theorem notifyCallStateChange_eq (s : System) (call : ℕ) :
    notifyCallStateChange s call = s := rfl

/-- The store's `onIncomingCall`. -/
def setIncomingCall (s : System) (callId : String) (call : ℕ) : System :=
  { s with store := { s.store with
    calls := s.store.calls.insert callId call
    incomingCall := some call
    currentCallId := some callId } }

namespace webRTCCalling

/-- Once it has the microphone and its offer. -/
def startCall (s : System) (callId peerId : String) : ℕ × System :=
  let (call, s) := s.alloc ⟨callId, peerId, .outgoing, .dialing⟩
  let s := notifyCallStateChange (s.setActive callId call) call
  (call, { s with service := { s.service with dialTimers := callId :: s.service.dialTimers } })

/-- Once it has the microphone and its peer connection has taken the offer. -/
def handleIncomingOffer (s : System) (callId sender : String) : System :=
  let (call, s) := s.alloc ⟨callId, sender, .incoming, .ringing⟩
  let s := notifyCallStateChange (s.setActive callId call) call
  setIncomingCall s callId call

/-- `takes` is whether the peer connection takes the answer. -/
def handleAnswer (s : System) (callId : String) (takes : Bool) : System :=
  match s.service.activeCalls.lookup callId with
  | none => s
  | some call =>
    if takes then notifyCallStateChange (s.setState call .connecting) call else s

/-- It throws if there is no incoming call to accept, or the peer connection has no answer. -/
def acceptCall (s : System) (callId : String) (answers : Bool) : Option System :=
  match s.service.activeCalls.lookup callId with
  | none => none
  | some call =>
    if (s.objects[call]?).map ActiveCall.direction = some .incoming ∧ answers then
      some (notifyCallStateChange (s.setState call .connecting) call)
    else none

def endCall (s : System) (callId : String) : System :=
  match s.service.activeCalls.lookup callId with
  | none => s
  | some call =>
    let s := notifyCallStateChange (s.setState call .ended) call
    { s with service := { s.service with cleanupTimers := callId :: s.service.cleanupTimers } }

def rejectCall (s : System) (callId : String) : Option System :=
  match s.service.activeCalls.lookup callId with
  | none => none
  | some call =>
    if (s.objects[call]?).map ActiveCall.direction = some .incoming then some (endCall s callId)
    else none

/-- The timer of `startCall` fires. -/
def dialTimeout (s : System) (callId : String) : System :=
  if callId ∈ s.service.dialTimers then
    let s := s.takeDialTimer callId
    if (s.get s.service.activeCalls callId).map ActiveCall.state = some .dialing then
      endCall s callId
    else s
  else s

/-- The timer of `endCall` fires. The idle copy of which it notifies has no listener. -/
def cleanup (s : System) (callId : String) : System :=
  if callId ∈ s.service.cleanupTimers then
    { s with service := { s.service with
      activeCalls := s.service.activeCalls.erase callId
      cleanupTimers := s.service.cleanupTimers.erase callId } }
  else s

def ontrack (s : System) (callId : String) : System :=
  match s.service.activeCalls.lookup callId with
  | none => s
  | some call => notifyCallStateChange (s.setState call .active) call

def onconnectionstatechange (s : System) (callId : String) (connectionState : ConnectionState) :
    System :=
  match s.service.activeCalls.lookup callId with
  | none => s
  | some call =>
    match connectionState with
    | .connected =>
      if (s.objects[call]?).map ActiveCall.state ≠ some .active then
        notifyCallStateChange (s.setState call .active) call
      else s
    | .disconnected | .failed =>
      if (s.objects[call]?).map ActiveCall.state = some .active then
        notifyCallStateChange (s.setState call .reconnecting) call
      else s
    | .closed => endCall s callId

def isInCall (s : System) : Bool := s.someInCall s.service.activeCalls

end webRTCCalling

/-- `works` is whether the service's call does not throw. -/
def startCall (s : System) (callId peerId : String) (works : Bool) : System :=
  if works then
    let (call, s) := webRTCCalling.startCall s callId peerId
    { s with store := { s.store with
      calls := s.store.calls.insert callId call
      currentCallId := some callId
      isInCall := true } }
  else s

/-- The update in `acceptCall`: a copy takes the place of the call. -/
def adoptCall (s : System) (callId : String) : System :=
  let (newCalls, s) :=
    match s.get s.store.calls callId with
    | none => (s.store.calls, s)
    | some call =>
      let (copy, s) := s.alloc { call with state := .connecting }
      (s.store.calls.insert callId copy, s)
  { s with store := { s.store with
    calls := newCalls
    incomingCall := none
    currentCallId := some callId
    isInCall := true } }

def acceptCall (s : System) (callId : String) (answers : Bool) : System :=
  match webRTCCalling.acceptCall s callId answers with
  | none => s
  | some s => adoptCall s callId

/-- `state.incomingCall?.callId` -/
def System.incomingCallId (s : System) : Option String :=
  (s.store.incomingCall.bind (s.objects[·]?)).map ActiveCall.callId

/-- The update in `rejectCall`. -/
def hideCall (s : System) (callId : String) : System :=
  { s with store := { s.store with
    calls := s.store.calls.erase callId
    incomingCall := if s.incomingCallId = some callId then none else s.store.incomingCall } }

def rejectCall (s : System) (callId : String) : System :=
  match webRTCCalling.rejectCall s callId with
  | none => s
  | some s => hideCall s callId

/-- The update in `endCall`, and for a message that rejects the call. -/
def dropCall (s : System) (callId : String) : System :=
  let newCalls := s.store.calls.erase callId
  { s with store := { s.store with
    calls := newCalls
    currentCallId := if s.store.currentCallId = some callId then none else s.store.currentCallId
    isInCall := decide (0 < newCalls.entries.length) } }

def endCall (s : System) (callId : String) : System :=
  dropCall (webRTCCalling.endCall s callId) callId

/-- `works` is whether an offer or an answer is taken. -/
def handleSignalingMessage (s : System) (callId sender : String) (message : SignalingMessage)
    (works : Bool) : System :=
  match message with
  | .offer => if works then webRTCCalling.handleIncomingOffer s callId sender else s
  | .answer => webRTCCalling.handleAnswer s callId works
  | .hangup _ => webRTCCalling.endCall s callId
  | .reject => dropCall s callId
  | .iceCandidate | .busy | .accept => s

/-- What the store would do with a changed call, if it were told. -/
def updateCallState (s : System) (callId : String) (call : ℕ) : System :=
  let newCalls := s.store.calls.insert callId call
  { s with store := { s.store with calls := newCalls, isInCall := s.someInCall newCalls } }

inductive Event where
  | startCall (callId peerId : String) (works : Bool)
  | acceptCall (callId : String) (answers : Bool)
  | rejectCall (callId : String)
  | endCall (callId : String)
  | message (callId sender : String) (message : SignalingMessage) (works : Bool)
  | dialTimeout (callId : String)
  | cleanup (callId : String)
  | ontrack (callId : String)
  | onconnectionstatechange (callId : String) (connectionState : ConnectionState)

def next (s : System) : Event → System
  | .startCall callId peerId works => startCall s callId peerId works
  | .acceptCall callId answers => acceptCall s callId answers
  | .rejectCall callId => rejectCall s callId
  | .endCall callId => endCall s callId
  | .message callId sender message works =>
    handleSignalingMessage s callId sender message works
  | .dialTimeout callId => webRTCCalling.dialTimeout s callId
  | .cleanup callId => webRTCCalling.cleanup s callId
  | .ontrack callId => webRTCCalling.ontrack s callId
  | .onconnectionstatechange callId connectionState =>
    webRTCCalling.onconnectionstatechange s callId connectionState

def step (s : System) (e : Event) : Unit × System := ((), next s e)

namespace System

/-- The service's call under an id. -/
abbrev active (s : System) (callId : String) : Option ActiveCall :=
  s.get s.service.activeCalls callId

/-- The store's entry under an id. -/
abbrev entry (s : System) (callId : String) : Option ActiveCall := s.get s.store.calls callId

end System

structure Mirrors (s : System) : Prop where
  calls : ∀ callId, s.entry callId = s.active callId
  isInCall : s.store.isInCall = webRTCCalling.isInCall s
  currentCallId : ∀ callId, s.store.currentCallId = some callId → (s.active callId).isSome
  incomingCall : ∀ callId, s.incomingCallId = some callId → (s.active callId).isSome

/-- Some call but the one with this id is active or connecting. -/
def OtherInCall (s : System) (callId : String) : Prop :=
  ∃ other, other ≠ callId ∧ ∃ call, s.active other = some call ∧ call.inCall = true

/-- The service may give the call this state without a word to the store: the store holds the
same object, or the call has the state already, and it makes no difference to `isInCall`. -/
def SparesState (s : System) (callId : String) (state : CallState) : Prop :=
  ∀ call, s.active callId = some call →
    (s.store.calls.lookup callId = s.service.activeCalls.lookup callId ∨ call.state = state) ∧
    (OtherInCall s callId ∨ (call.inCall = true ↔ state = .active ∨ state = .connecting))

/-- The event keeps the store and the service in step. -/
def Spares (s : System) : Event → Prop
  | .startCall callId _ works => works = true → OtherInCall s callId
  | .acceptCall _ _ => True
  | .rejectCall callId => (s.active callId).map ActiveCall.direction ≠ some .incoming
  | .endCall callId | .message callId _ .reject _ =>
    s.active callId = none ∧
      (0 < (s.store.calls.erase callId).entries.length → webRTCCalling.isInCall s = true)
  | .message callId _ .offer works => works = true → ∀ call,
    s.active callId = some call → call.inCall = true → OtherInCall s callId
  | .message callId _ .answer works => works = true → SparesState s callId .connecting
  | .message callId _ (.hangup _) _ => SparesState s callId .ended
  | .message _ _ .iceCandidate _ | .message _ _ .busy _ | .message _ _ .accept _ => True
  | .dialTimeout callId => callId ∈ s.service.dialTimers →
    (s.active callId).map ActiveCall.state = some .dialing → SparesState s callId .ended
  | .cleanup callId => callId ∈ s.service.cleanupTimers → s.active callId = none
  | .ontrack callId => SparesState s callId .active
  | .onconnectionstatechange callId .connected => SparesState s callId .active
  | .onconnectionstatechange callId .disconnected | .onconnectionstatechange callId .failed =>
    (s.active callId).map ActiveCall.state = some .active → SparesState s callId .reconnecting
  | .onconnectionstatechange callId .closed => SparesState s callId .ended

section

variable {s s' : System} {calls : Calls} {callId : String} {r : ℕ} {call : ActiveCall}

theorem someInCall_iff : s.someInCall calls = true ↔
    ∃ callId call, s.get calls callId = some call ∧ call.inCall = true := by
  simp only [System.someInCall, List.any_eq_true, Option.any_eq_true, System.get,
    Option.bind_eq_some_iff]
  constructor
  · rintro ⟨⟨callId, r⟩, member, call, found, inCall⟩
    exact ⟨callId, call, ⟨r, AList.mem_lookup_iff.mpr member, found⟩, inCall⟩
  · rintro ⟨callId, call, ⟨r, here, found⟩, inCall⟩
    exact ⟨⟨callId, r⟩, AList.mem_lookup_iff.mp here, call, found, inCall⟩

theorem size_pos_iff : 0 < calls.entries.length ↔ ∃ callId r, calls.lookup callId = some r := by
  rw [List.length_pos_iff_exists_mem]
  constructor
  · rintro ⟨⟨callId, r⟩, member⟩
    exact ⟨callId, r, AList.mem_lookup_iff.mpr member⟩
  · rintro ⟨callId, r, here⟩
    exact ⟨⟨callId, r⟩, AList.mem_lookup_iff.mp here⟩

/-- A call is kept under its own id. -/
def Keyed (objects : List ActiveCall) (calls : Calls) : Prop :=
  ∀ callId r, calls.lookup callId = some r →
    ∃ call, objects[r]? = some call ∧ call.callId = callId

structure Sound (s : System) : Prop where
  active : Keyed s.objects s.service.activeCalls
  entries : Keyed s.objects s.store.calls
  incoming : ∀ r, s.store.incomingCall = some r → r < s.objects.length

theorem Keyed.insert {objects : List ActiveCall} (keyed : Keyed objects calls)
    (found : objects[r]? = some call) (ids : call.callId = callId) :
    Keyed objects (calls.insert callId r) := by
  intro other r' here
  by_cases same : other = callId
  · subst same
    rw [AList.lookup_insert] at here
    obtain rfl := Option.some.inj here
    exact ⟨call, found, ids⟩
  · rw [AList.lookup_insert_ne same] at here
    exact keyed other r' here

theorem Keyed.erase {objects : List ActiveCall} (keyed : Keyed objects calls) (callId : String) :
    Keyed objects (calls.erase callId) := by
  intro other r here
  by_cases same : other = callId
  · subst same
    rw [AList.lookup_erase] at here
    cases here
  · rw [AList.lookup_erase_ne same] at here
    exact keyed other r here

theorem Keyed.append {objects : List ActiveCall} (keyed : Keyed objects calls)
    (call : ActiveCall) : Keyed (objects ++ [call]) calls := by
  intro callId r here
  obtain ⟨found, lookup, ids⟩ := keyed callId r here
  have bound := (List.getElem?_eq_some_iff.mp lookup).1
  exact ⟨found, by rw [List.getElem?_append_left bound, lookup], ids⟩

theorem Keyed.modify {objects : List ActiveCall} (keyed : Keyed objects calls) (r : ℕ)
    (state : CallState) :
    Keyed (objects.modify r fun call => { call with state }) calls := by
  intro callId r' here
  obtain ⟨call, lookup, ids⟩ := keyed callId r' here
  by_cases same : r = r'
  · exact ⟨{ call with state }, by simp [same, lookup], ids⟩
  · exact ⟨call, by simp [same, lookup], ids⟩

theorem get_of_lookup (here : calls.lookup callId = some r) :
    s.get calls callId = s.objects[r]? := by
  rw [System.get, here, Option.bind_some]

theorem get_insert : s.get (calls.insert callId r) callId = s.objects[r]? :=
  get_of_lookup (AList.lookup_insert _)

theorem get_insert_ne {other : String} (differ : other ≠ callId) :
    s.get (calls.insert callId r) other = s.get calls other := by
  rw [System.get, AList.lookup_insert_ne differ, System.get]

theorem get_erase : s.get (calls.erase callId) callId = none := by
  rw [System.get, AList.lookup_erase, Option.bind_none]

theorem get_erase_ne {other : String} (differ : other ≠ callId) :
    s.get (calls.erase callId) other = s.get calls other := by
  rw [System.get, AList.lookup_erase_ne differ, System.get]

theorem get_append (keyed : Keyed s.objects calls) (objects : s'.objects = s.objects ++ [call])
    (callId : String) : s'.get calls callId = s.get calls callId := by
  cases here : calls.lookup callId with
  | none => simp only [System.get, here, Option.bind_none]
  | some r =>
    obtain ⟨found, lookup, -⟩ := keyed callId r here
    have bound := (List.getElem?_eq_some_iff.mp lookup).1
    rw [get_of_lookup here, get_of_lookup here, objects, List.getElem?_append_left bound]

theorem get_setState (state : CallState) (callId : String) :
    (s.setState r state).get calls callId =
      if calls.lookup callId = some r then
        (s.get calls callId).map fun call => { call with state }
      else s.get calls callId := by
  cases here : calls.lookup callId with
  | none => simp [System.get, here]
  | some r' =>
    rw [get_of_lookup here, get_of_lookup here, System.setState, List.getElem?_modify]
    by_cases same : r = r'
    · simp [same]
    · simp [same, Ne.symm same]

/-- The object of one call is under no other id. -/
theorem Keyed.ne_of_ne {objects : List ActiveCall} {calls' : Calls} {other : String}
    (keyed : Keyed objects calls) (keyed' : Keyed objects calls')
    (here : calls.lookup callId = some r) (differ : other ≠ callId) :
    calls'.lookup other ≠ some r := by
  intro there
  obtain ⟨call, found, rfl⟩ := keyed callId r here
  obtain ⟨call', found', rfl⟩ := keyed' other r there
  rw [found] at found'
  exact differ (congrArg ActiveCall.callId (Option.some.inj found').symm)

theorem Keyed.get_some (keyed : Keyed s.objects calls) (here : calls.lookup callId = some r) :
    ∃ call, s.objects[r]? = some call ∧ s.get calls callId = some call := by
  obtain ⟨call, found, -⟩ := keyed callId r here
  exact ⟨call, found, (get_of_lookup here).trans found⟩

theorem Keyed.get_none_iff (keyed : Keyed s.objects calls) :
    s.get calls callId = none ↔ calls.lookup callId = none := by
  cases here : calls.lookup callId with
  | none => simp [System.get, here]
  | some r =>
    obtain ⟨call, -, get⟩ := keyed.get_some here
    simp [get]

theorem sound_atLoad : Sound atLoad :=
  ⟨nofun, nofun, nofun⟩

theorem Sound.setState (sound : Sound s) (r : ℕ) (state : CallState) :
    Sound (s.setState r state) where
  active := sound.active.modify r state
  entries := sound.entries.modify r state
  incoming r' here := by
    rw [System.setState, List.length_modify]
    exact sound.incoming r' here

theorem Sound.alloc (sound : Sound s) (call : ActiveCall) : Sound (s.alloc call).2 where
  active := sound.active.append call
  entries := sound.entries.append call
  incoming r here := by
    rw [System.alloc, List.length_append]
    exact Nat.lt_add_right _ (sound.incoming r here)

theorem alloc_found (s : System) (call : ActiveCall) :
    (s.alloc call).2.objects[(s.alloc call).1]? = some call :=
  List.getElem?_concat_length

theorem Sound.endCall (sound : Sound s) (callId : String) :
    Sound (webRTCCalling.endCall s callId) := by
  rw [webRTCCalling.endCall]
  split
  · exact sound
  · obtain ⟨active, entries, incoming⟩ := sound.setState _ .ended
    exact ⟨active, entries, incoming⟩

theorem Sound.dropCall (sound : Sound s) (callId : String) : Sound (dropCall s callId) :=
  ⟨sound.active, sound.entries.erase callId, sound.incoming⟩

theorem Sound.startCall (sound : Sound s) (callId peerId : String) (works : Bool) :
    Sound (startCall s callId peerId works) := by
  rw [CallStore.startCall]
  split
  · obtain ⟨active, entries, incoming⟩ := sound.alloc ⟨callId, peerId, .outgoing, .dialing⟩
    have found := alloc_found s ⟨callId, peerId, .outgoing, .dialing⟩
    exact ⟨active.insert found rfl, entries.insert found rfl, incoming⟩
  · exact sound

theorem Sound.handleIncomingOffer (sound : Sound s) (callId sender : String) :
    Sound (webRTCCalling.handleIncomingOffer s callId sender) := by
  obtain ⟨active, entries, -⟩ := sound.alloc ⟨callId, sender, .incoming, .ringing⟩
  have found := alloc_found s ⟨callId, sender, .incoming, .ringing⟩
  refine ⟨active.insert found rfl, entries.insert found rfl, ?_⟩
  rintro r ⟨⟩
  exact (List.getElem?_eq_some_iff.mp found).1

theorem Sound.adoptCall (sound : Sound s) (callId : String) : Sound (adoptCall s callId) := by
  rw [CallStore.adoptCall]
  cases here : s.get s.store.calls callId with
  | none => exact ⟨sound.active, sound.entries, nofun⟩
  | some call =>
    obtain ⟨r, lookup, found⟩ := Option.bind_eq_some_iff.mp here
    obtain ⟨call', found', rfl⟩ := sound.entries callId r lookup
    obtain rfl := Option.some.inj (found.symm.trans found')
    obtain ⟨active, entries, -⟩ := sound.alloc { call with state := .connecting }
    exact ⟨active, entries.insert (alloc_found s _) rfl, nofun⟩

/-- What the store accepts the service has just made a connecting call. -/
theorem acceptCall_cases (s : System) (callId : String) (answers : Bool) :
    acceptCall s callId answers = s ∨
      ∃ r, s.service.activeCalls.lookup callId = some r ∧
        acceptCall s callId answers = adoptCall (s.setState r .connecting) callId := by
  rw [acceptCall, webRTCCalling.acceptCall]
  cases here : s.service.activeCalls.lookup callId with
  | none => exact Or.inl rfl
  | some r =>
    by_cases accepts :
        (s.objects[r]?).map ActiveCall.direction = some .incoming ∧ answers = true
    · exact Or.inr ⟨r, rfl, by simp only [accepts, and_self, if_true, notifyCallStateChange_eq]⟩
    · exact Or.inl (by simp only [accepts, if_false])

theorem Sound.acceptCall (sound : Sound s) (callId : String) (answers : Bool) :
    Sound (acceptCall s callId answers) := by
  obtain same | ⟨r, -, accepted⟩ := acceptCall_cases s callId answers
  · rwa [same]
  · rw [accepted]
    exact (sound.setState r .connecting).adoptCall callId

theorem rejectCall_cases (s : System) (callId : String) :
    (s.active callId).map ActiveCall.direction ≠ some .incoming ∧ rejectCall s callId = s ∨
      (s.active callId).map ActiveCall.direction = some .incoming ∧
        rejectCall s callId = hideCall (webRTCCalling.endCall s callId) callId := by
  rw [rejectCall, webRTCCalling.rejectCall, System.active]
  cases here : s.service.activeCalls.lookup callId with
  | none => exact Or.inl ⟨by simp [System.get, here], rfl⟩
  | some r =>
    rw [get_of_lookup here]
    by_cases incoming : (s.objects[r]?).map ActiveCall.direction = some .incoming
    · exact Or.inr ⟨incoming, by simp only [incoming, if_true]⟩
    · exact Or.inl ⟨incoming, by simp only [incoming, if_false]⟩

theorem Sound.hideCall (sound : Sound s) (callId : String) : Sound (hideCall s callId) where
  active := sound.active
  entries := sound.entries.erase callId
  incoming r here := by
    rw [CallStore.hideCall] at here
    split at here
    · cases here
    · exact sound.incoming r here

theorem Sound.rejectCall (sound : Sound s) (callId : String) : Sound (rejectCall s callId) := by
  obtain ⟨-, same⟩ | ⟨-, rejected⟩ := rejectCall_cases s callId
  · rwa [same]
  · rw [rejected]
    exact (sound.endCall callId).hideCall callId

theorem Sound.handleAnswer (sound : Sound s) (callId : String) (takes : Bool) :
    Sound (webRTCCalling.handleAnswer s callId takes) := by
  rw [webRTCCalling.handleAnswer]
  split
  · exact sound
  · split
    · exact sound.setState _ _
    · exact sound

theorem Sound.dialTimeout (sound : Sound s) (callId : String) :
    Sound (webRTCCalling.dialTimeout s callId) := by
  rw [webRTCCalling.dialTimeout]
  split
  · have fired : Sound (s.takeDialTimer callId) := ⟨sound.active, sound.entries, sound.incoming⟩
    dsimp only
    split
    · exact fired.endCall callId
    · exact fired
  · exact sound

theorem Sound.cleanup (sound : Sound s) (callId : String) :
    Sound (webRTCCalling.cleanup s callId) := by
  rw [webRTCCalling.cleanup]
  split
  · exact ⟨sound.active.erase callId, sound.entries, sound.incoming⟩
  · exact sound

theorem Sound.ontrack (sound : Sound s) (callId : String) :
    Sound (webRTCCalling.ontrack s callId) := by
  rw [webRTCCalling.ontrack]
  split
  · exact sound
  · exact sound.setState _ _

theorem Sound.onconnectionstatechange (sound : Sound s) (callId : String)
    (connectionState : ConnectionState) :
    Sound (webRTCCalling.onconnectionstatechange s callId connectionState) := by
  rw [webRTCCalling.onconnectionstatechange]
  split
  · exact sound
  · cases connectionState with
    | closed => exact sound.endCall callId
    | connected | disconnected | failed =>
      dsimp only
      split
      · exact sound.setState _ _
      · exact sound

theorem sound_step (sound : Sound s) (e : Event) : Sound (step s e).2 := by
  cases e with
  | startCall callId peerId works => exact sound.startCall callId peerId works
  | acceptCall callId answers => exact sound.acceptCall callId answers
  | rejectCall callId => exact sound.rejectCall callId
  | endCall callId => exact (sound.endCall callId).dropCall callId
  | message callId sender message works =>
    cases message with
    | offer =>
      simp only [step, next, handleSignalingMessage]
      split
      · exact sound.handleIncomingOffer callId sender
      · exact sound
    | answer => exact sound.handleAnswer callId works
    | hangup reason => exact sound.endCall callId
    | reject => exact sound.dropCall callId
    | iceCandidate | busy | accept => exact sound
  | dialTimeout callId => exact sound.dialTimeout callId
  | cleanup callId => exact sound.cleanup callId
  | ontrack callId => exact sound.ontrack callId
  | onconnectionstatechange callId connectionState =>
    exact sound.onconnectionstatechange callId connectionState

/-- Nothing but the call with this id has changed. -/
structure OnlyAt (callId : String) (s s' : System) : Prop where
  active : ∀ other, other ≠ callId → s'.active other = s.active other
  entry : ∀ other, other ≠ callId → s'.entry other = s.entry other
  currentCallId : ∀ other, s'.store.currentCallId = some other →
    s.store.currentCallId = some other ∨ other = callId
  incomingCallId : ∀ other, s'.incomingCallId = some other →
    s.incomingCallId = some other ∨ other = callId

theorem OnlyAt.trans {s'' : System} (first : OnlyAt callId s s')
    (second : OnlyAt callId s' s'') : OnlyAt callId s s'' where
  active other differ := (second.active other differ).trans (first.active other differ)
  entry other differ := (second.entry other differ).trans (first.entry other differ)
  currentCallId other here :=
    (second.currentCallId other here).elim (first.currentCallId other) Or.inr
  incomingCallId other here :=
    (second.incomingCallId other here).elim (first.incomingCallId other) Or.inr

theorem OnlyAt.isInCall_iff (only : OnlyAt callId s s') :
    webRTCCalling.isInCall s' = true ↔
      OtherInCall s callId ∨ ∃ call, s'.active callId = some call ∧ call.inCall = true := by
  rw [webRTCCalling.isInCall, someInCall_iff]
  constructor
  · rintro ⟨other, call, found, inCall⟩
    by_cases same : other = callId
    · subst same
      exact Or.inr ⟨call, found, inCall⟩
    · exact Or.inl ⟨other, same, call, (only.active other same).symm.trans found, inCall⟩
  · rintro (⟨other, differ, call, found, inCall⟩ | ⟨call, found, inCall⟩)
    · exact ⟨other, call, (only.active other differ).trans found, inCall⟩
    · exact ⟨callId, call, found, inCall⟩

theorem onlyAt_refl (callId : String) (s : System) : OnlyAt callId s s :=
  ⟨fun _ _ => rfl, fun _ _ => rfl, fun _ => Or.inl, fun _ => Or.inl⟩

theorem OnlyAt.mirrors_iff (only : OnlyAt callId s s') (mirrors : Mirrors s)
    (present : (s'.active callId).isSome) :
    Mirrors s' ↔ s'.entry callId = s'.active callId ∧
      s'.store.isInCall = webRTCCalling.isInCall s' := by
  have stays : ∀ other, (s.active other).isSome → (s'.active other).isSome := by
    intro other here
    by_cases same : other = callId
    · exact same ▸ present
    · rwa [only.active other same]
  constructor
  · exact fun after => ⟨after.calls callId, after.isInCall⟩
  · rintro ⟨atId, isInCall⟩
    refine ⟨fun other => ?_, isInCall, fun other current => ?_, fun other incoming => ?_⟩
    · by_cases same : other = callId
      · exact same ▸ atId
      · rw [only.active other same, only.entry other same, mirrors.calls]
    · obtain before | rfl := only.currentCallId other current
      · exact stays other (mirrors.currentCallId other before)
      · exact present
    · obtain before | rfl := only.incomingCallId other incoming
      · exact stays other (mirrors.incomingCall other before)
      · exact present

theorem inCall_iff (call : ActiveCall) :
    call.inCall = true ↔ call.state = .active ∨ call.state = .connecting := by
  simp [ActiveCall.inCall]

theorem setState_active (here : s.service.activeCalls.lookup callId = some r)
    (state : CallState) : (s.setState r state).active callId =
      (s.active callId).map fun call => { call with state } := by
  rw [System.active, get_setState]
  exact if_pos here

theorem incomingCallId_setState (r : ℕ) (state : CallState) :
    (s.setState r state).incomingCallId = s.incomingCallId := by
  cases current : s.store.incomingCall with
  | none => simp [System.incomingCallId, System.setState, current]
  | some r' =>
    simp only [System.incomingCallId, System.setState, current, Option.bind_some,
      List.getElem?_modify, Option.map_eq_map, Option.map_map]
    congr 1
    funext call
    simp only [Function.comp_apply]
    split
    · rfl
    · rfl

theorem setState_only (sound : Sound s) (here : s.service.activeCalls.lookup callId = some r)
    (state : CallState) : OnlyAt callId s (s.setState r state) where
  active other differ := by
    rw [System.active, get_setState]
    exact if_neg (sound.active.ne_of_ne sound.active here differ)
  entry other differ := by
    rw [System.entry, get_setState]
    exact if_neg (sound.active.ne_of_ne sound.entries here differ)
  currentCallId _ := Or.inl
  incomingCallId other incoming := Or.inl ((incomingCallId_setState r state).symm.trans incoming)

/-- The service writes a state into a call. -/
theorem setState_mirrors_iff (sound : Sound s) (mirrors : Mirrors s)
    (here : s.service.activeCalls.lookup callId = some r) (state : CallState) :
    Mirrors (s.setState r state) ↔ SparesState s callId state := by
  obtain ⟨call, -, get⟩ := sound.active.get_some here
  have only := setState_only sound here state
  have active : (s.setState r state).active callId = some { call with state } := by
    rw [setState_active here, System.active, get, Option.map_some]
  have sameCall : (s.setState r state).entry callId = (s.setState r state).active callId ↔
      s.store.calls.lookup callId = s.service.activeCalls.lookup callId ∨ call.state = state := by
    have entry : s.get s.store.calls callId = some call := (mirrors.calls callId).trans get
    rw [active, System.entry, get_setState, here, System.setState, entry]
    by_cases shared : s.store.calls.lookup callId = some r
    · simp [shared]
    · obtain ⟨_, _, _, before⟩ := call
      simp [shared]
  have sameInCall :
      (s.setState r state).store.isInCall = webRTCCalling.isInCall (s.setState r state) ↔
        (OtherInCall s callId ∨ (call.inCall = true ↔ state = .active ∨ state = .connecting)) := by
    have before := (onlyAt_refl callId s).isInCall_iff
    have after := only.isInCall_iff
    simp only [get, active, Option.some.injEq, exists_eq_left', inCall_iff] at before after
    rw [Bool.eq_iff_iff, after, System.setState, mirrors.isInCall, before, inCall_iff]
    by_cases other : OtherInCall s callId
    · simp only [other, true_or]
    · simp only [other, false_or]
  rw [only.mirrors_iff mirrors (by rw [active]; rfl), sameCall, sameInCall, SparesState]
  simp only [System.active, get, Option.some.injEq, forall_eq']

theorem sparesState_of_absent (absent : s.service.activeCalls.lookup callId = none)
    (state : CallState) : SparesState s callId state := by
  intro call here
  rw [System.active, System.get, absent] at here
  cases here

/-- Timers, and an erased id that has no call, are nothing the store could see. -/
theorem mirrors_congr (s s' : System) (active : ∀ callId, s'.active callId = s.active callId)
    (store : s'.store = s.store) (objects : s'.objects = s.objects) :
    Mirrors s' ↔ Mirrors s := by
  have entry : ∀ callId, s'.entry callId = s.entry callId := by
    intro callId
    rw [System.entry, System.entry, System.get, System.get, store, objects]
  have inCall : webRTCCalling.isInCall s' = webRTCCalling.isInCall s := by
    rw [Bool.eq_iff_iff, webRTCCalling.isInCall, webRTCCalling.isInCall, someInCall_iff,
      someInCall_iff]
    exact exists_congr fun callId => by rw [← System.active, ← System.active, active]
  have incoming : s'.incomingCallId = s.incomingCallId := by
    rw [System.incomingCallId, System.incomingCallId, store, objects]
  constructor
  · rintro ⟨calls, isInCall, currentCallId, incomingCall⟩
    simp only [active, entry, inCall, incoming, store] at calls isInCall currentCallId incomingCall
    exact ⟨calls, isInCall, currentCallId, incomingCall⟩
  · rintro ⟨calls, isInCall, currentCallId, incomingCall⟩
    constructor <;> simp only [active, entry, inCall, incoming, store] <;> assumption

theorem serviceEndCall_mirrors_iff (sound : Sound s) (mirrors : Mirrors s) (callId : String) :
    Mirrors (webRTCCalling.endCall s callId) ↔ SparesState s callId .ended := by
  rw [webRTCCalling.endCall]
  cases here : s.service.activeCalls.lookup callId with
  | none => exact iff_of_true mirrors (sparesState_of_absent here _)
  | some r =>
    rw [← setState_mirrors_iff sound mirrors here]
    exact mirrors_congr _ _ (fun _ => rfl) rfl rfl

theorem ontrack_mirrors_iff (sound : Sound s) (mirrors : Mirrors s) (callId : String) :
    Mirrors (webRTCCalling.ontrack s callId) ↔ SparesState s callId .active := by
  rw [webRTCCalling.ontrack]
  cases here : s.service.activeCalls.lookup callId with
  | none => exact iff_of_true mirrors (sparesState_of_absent here _)
  | some r => exact setState_mirrors_iff sound mirrors here .active

theorem handleAnswer_mirrors_iff (sound : Sound s) (mirrors : Mirrors s) (callId : String)
    (takes : Bool) : Mirrors (webRTCCalling.handleAnswer s callId takes) ↔
      (takes = true → SparesState s callId .connecting) := by
  rw [webRTCCalling.handleAnswer]
  cases here : s.service.activeCalls.lookup callId with
  | none => exact iff_of_true mirrors fun _ => sparesState_of_absent here _
  | some r =>
    cases takes with
    | false => exact iff_of_true mirrors nofun
    | true => simpa using setState_mirrors_iff sound mirrors here .connecting

theorem onconnectionstatechange_mirrors_iff (sound : Sound s) (mirrors : Mirrors s)
    (callId : String) (connectionState : ConnectionState) :
    Mirrors (webRTCCalling.onconnectionstatechange s callId connectionState) ↔
      Spares s (.onconnectionstatechange callId connectionState) := by
  rw [webRTCCalling.onconnectionstatechange]
  cases here : s.service.activeCalls.lookup callId with
  | none =>
    refine iff_of_true mirrors ?_
    cases connectionState with
    | connected | closed => exact sparesState_of_absent here _
    | disconnected | failed => exact fun _ => sparesState_of_absent here _
  | some r =>
    obtain ⟨call, found, get⟩ := sound.active.get_some here
    have active : s.active callId = some call := get
    cases connectionState with
    | closed => exact serviceEndCall_mirrors_iff sound mirrors callId
    | connected =>
      simp only [found, Option.map_some, Spares]
      by_cases already : call.state = .active
      · simp only [already, ne_eq, not_true_eq_false, if_false]
        refine iff_of_true mirrors fun call' here' => ?_
        obtain rfl := Option.some.inj (active.symm.trans here')
        exact ⟨Or.inr already, Or.inr (by simp [inCall_iff, already])⟩
      · simp only [ne_eq, Option.some.injEq, already, not_false_eq_true, if_true]
        exact setState_mirrors_iff sound mirrors here .active
    | disconnected | failed =>
      simp only [found, active, Option.map_some, Spares]
      by_cases connected : call.state = .active
      · simp only [connected, if_true, true_implies]
        exact setState_mirrors_iff sound mirrors here .reconnecting
      · simp only [Option.some.injEq, connected, if_false, false_implies]
        exact iff_of_true mirrors trivial

theorem dialTimeout_mirrors_iff (sound : Sound s) (mirrors : Mirrors s) (callId : String) :
    Mirrors (webRTCCalling.dialTimeout s callId) ↔ Spares s (.dialTimeout callId) := by
  rw [webRTCCalling.dialTimeout, Spares]
  by_cases pending : callId ∈ s.service.dialTimers
  · rw [if_pos pending]
    have fired : Mirrors (s.takeDialTimer callId) :=
      (mirrors_congr s (s.takeDialTimer callId) (fun _ => rfl) rfl rfl).mpr mirrors
    have sound' : Sound (s.takeDialTimer callId) :=
      ⟨sound.active, sound.entries, sound.incoming⟩
    have sameState : (s.takeDialTimer callId).get
        (s.takeDialTimer callId).service.activeCalls callId = s.active callId := rfl
    simp only [pending, true_implies, sameState]
    by_cases dialing : (s.active callId).map ActiveCall.state = some .dialing
    · simp only [dialing, if_true, true_implies]
      exact serviceEndCall_mirrors_iff sound' fired callId
    · simp only [dialing, if_false, false_implies]
      exact iff_of_true fired trivial
  · rw [if_neg pending]
    exact iff_of_true mirrors fun pending' => absurd pending' pending

theorem cleanup_mirrors_iff (mirrors : Mirrors s) (callId : String) :
    Mirrors (webRTCCalling.cleanup s callId) ↔ Spares s (.cleanup callId) := by
  rw [webRTCCalling.cleanup, Spares]
  by_cases pending : callId ∈ s.service.cleanupTimers
  · rw [if_pos pending]
    simp only [pending, true_implies]
    constructor
    · intro after
      rw [← mirrors.calls callId]
      exact (after.calls callId).trans get_erase
    · intro absent
      have active : ∀ other,
          s.get (s.service.activeCalls.erase callId) other = s.active other := by
        intro other
        by_cases same : other = callId
        · subst same
          exact get_erase.trans absent.symm
        · exact get_erase_ne same
      exact Iff.mpr (mirrors_congr s _ active rfl rfl) mirrors
  · rw [if_neg pending]
    exact iff_of_true mirrors fun pending' => absurd pending' pending

/-- Both put a new call under the id. -/
theorem placed_only (s' : System) (sound : Sound s) {call : ActiveCall}
    (objects : s'.objects = s.objects ++ [call])
    (activeCalls :
      s'.service.activeCalls = s.service.activeCalls.insert callId s.objects.length)
    (calls : s'.store.calls = s.store.calls.insert callId s.objects.length)
    (currentCallId : s'.store.currentCallId = some callId)
    (incomingCallId : ∀ other, s'.incomingCallId = some other →
      s.incomingCallId = some other ∨ other = callId) :
    OnlyAt callId s s' ∧ s'.active callId = some call ∧ s'.entry callId = some call := by
  have new : s'.objects[s.objects.length]? = some call := by
    rw [objects]
    exact List.getElem?_concat_length
  refine ⟨⟨fun other differ => ?_, fun other differ => ?_, fun other current => ?_,
    incomingCallId⟩, ?_, ?_⟩
  · rw [System.active, activeCalls, get_insert_ne differ, get_append sound.active objects]
  · rw [System.entry, calls, get_insert_ne differ, get_append sound.entries objects]
  · rw [currentCallId] at current
    exact Or.inr (Option.some.inj current).symm
  · rw [System.active, activeCalls, get_insert, new]
  · rw [System.entry, calls, get_insert, new]

theorem startCall_mirrors_iff (sound : Sound s) (mirrors : Mirrors s)
    (callId peerId : String) (works : Bool) :
    Mirrors (startCall s callId peerId works) ↔ (works = true → OtherInCall s callId) := by
  cases works with
  | false => exact iff_of_true mirrors nofun
  | true =>
    have incoming : ∀ other, (startCall s callId peerId true).incomingCallId = some other →
        s.incomingCallId = some other ∨ other = callId := by
      intro other here
      obtain ⟨call, found, rfl⟩ := Option.map_eq_some_iff.mp here
      obtain ⟨r, current, lookup⟩ := Option.bind_eq_some_iff.mp found
      have before : s.objects[r]? = some call :=
        (List.getElem?_append_left (sound.incoming r current)).symm.trans lookup
      have current' : s.store.incomingCall = some r := current
      exact Or.inl (by rw [System.incomingCallId, current', Option.bind_some, before]; rfl)
    obtain ⟨only, active, entry⟩ :=
      placed_only (startCall s callId peerId true) sound rfl rfl rfl rfl incoming
    rw [only.mirrors_iff mirrors (by rw [active]; rfl), active, entry, Bool.eq_iff_iff,
      only.isInCall_iff, active]
    simp [startCall, inCall_iff]

theorem handleIncomingOffer_mirrors_iff (sound : Sound s) (mirrors : Mirrors s)
    (callId sender : String) :
    Mirrors (webRTCCalling.handleIncomingOffer s callId sender) ↔
      ∀ call, s.active callId = some call → call.inCall = true → OtherInCall s callId := by
  have incoming : ∀ other,
      (webRTCCalling.handleIncomingOffer s callId sender).incomingCallId = some other →
        s.incomingCallId = some other ∨ other = callId := by
    intro other here
    obtain ⟨call, found, rfl⟩ := Option.map_eq_some_iff.mp here
    obtain ⟨r, ⟨⟩, lookup⟩ := Option.bind_eq_some_iff.mp found
    obtain rfl := Option.some.inj (lookup.symm.trans (alloc_found s _))
    exact Or.inr rfl
  obtain ⟨only, active, entry⟩ := placed_only
    (webRTCCalling.handleIncomingOffer s callId sender) sound rfl rfl rfl rfl incoming
  have unchanged :
      (webRTCCalling.handleIncomingOffer s callId sender).store.isInCall = s.store.isInCall := rfl
  rw [only.mirrors_iff mirrors (by rw [active]; rfl), active, entry, Bool.eq_iff_iff,
    only.isInCall_iff, active, unchanged, mirrors.isInCall, (onlyAt_refl callId s).isInCall_iff]
  by_cases other : OtherInCall s callId
  · simp [other]
  · simp [other, inCall_iff]

theorem adoptCall_of_entry (entry : s.entry callId = some call) :
    adoptCall s callId = ⟨s.objects ++ [{ call with state := .connecting }], s.service,
      ⟨s.store.calls.insert callId s.objects.length, none, true, some callId⟩⟩ := by
  rw [System.entry] at entry
  simp only [adoptCall, entry, System.alloc]

theorem adoptCall_only (sound : Sound s) (entry : s.entry callId = some call) :
    OnlyAt callId s (adoptCall s callId) ∧
      (adoptCall s callId).active callId = s.active callId ∧
      (adoptCall s callId).entry callId = some { call with state := .connecting } ∧
      (adoptCall s callId).store.isInCall = true := by
  rw [adoptCall_of_entry entry]
  refine ⟨⟨fun other _ => get_append sound.active rfl other, fun other differ => ?_,
    fun other current => ?_, nofun⟩, get_append sound.active rfl callId, ?_, rfl⟩
  · exact (get_insert_ne differ).trans (get_append sound.entries rfl other)
  · exact Or.inr (Option.some.inj current).symm
  · exact get_insert.trans List.getElem?_concat_length

theorem acceptCall_mirrors (sound : Sound s) (mirrors : Mirrors s) (callId : String)
    (answers : Bool) : Mirrors (acceptCall s callId answers) := by
  obtain same | ⟨r, here, accepted⟩ := acceptCall_cases s callId answers
  · rwa [same]
  · obtain ⟨call, -, get⟩ := sound.active.get_some here
    have written := setState_only sound here .connecting
    have active := setState_active here .connecting
    have entry : s.get s.store.calls callId = some call := (mirrors.calls callId).trans get
    obtain ⟨call', there, same⟩ : ∃ call', (s.setState r .connecting).entry callId = some call' ∧
        { call' with state := .connecting } = { call with state := CallState.connecting } := by
      rw [System.entry, get_setState, System.setState, entry]
      split
      · exact ⟨_, rfl, rfl⟩
      · exact ⟨_, rfl, rfl⟩
    obtain ⟨adopted, sameActive, copied, inCall⟩ :=
      adoptCall_only (sound.setState r .connecting) there
    have before : s.active callId = some call := get
    rw [before, Option.map_some, ← same] at active
    rw [accepted, (written.trans adopted).mirrors_iff mirrors (by rw [sameActive, active]; rfl),
      Bool.eq_iff_iff, (written.trans adopted).isInCall_iff, sameActive, active]
    simp [copied, inCall, inCall_iff]

/-- The store drops a call the service still has. -/
theorem not_mirrors_of_dropped (present : (s'.active callId).isSome)
    (absent : s'.entry callId = none) : ¬ Mirrors s' := by
  intro after
  rw [← after.calls callId, absent] at present
  cases present

theorem serviceEndCall_active (s : System) (callId : String) :
    ((webRTCCalling.endCall s callId).active callId).isSome = (s.active callId).isSome := by
  rw [webRTCCalling.endCall]
  cases here : s.service.activeCalls.lookup callId with
  | none => rfl
  | some r => exact (congrArg Option.isSome (setState_active here .ended)).trans Option.isSome_map

theorem rejectCall_mirrors_iff (mirrors : Mirrors s) (callId : String) :
    Mirrors (rejectCall s callId) ↔
      (s.active callId).map ActiveCall.direction ≠ some .incoming := by
  obtain ⟨other, same⟩ | ⟨incoming, rejected⟩ := rejectCall_cases s callId
  · rw [same]
    exact iff_of_true mirrors other
  · rw [rejected]
    refine iff_of_false (not_mirrors_of_dropped ?_ get_erase) (not_not.mpr incoming)
    obtain ⟨call, here, -⟩ := Option.map_eq_some_iff.mp incoming
    exact (serviceEndCall_active s callId).trans (by rw [here]; rfl)

theorem dropCall_mirrors_iff (mirrors : Mirrors s) (callId : String) :
    Mirrors (dropCall s callId) ↔ s.active callId = none ∧
      (0 < (s.store.calls.erase callId).entries.length → webRTCCalling.isInCall s = true) := by
  cases here : s.active callId with
  | some call =>
    have present : ((dropCall s callId).active callId).isSome := by
      rw [show (dropCall s callId).active callId = s.active callId from rfl, here]
      rfl
    exact iff_of_false (not_mirrors_of_dropped present get_erase) nofun
  | none =>
    have othersLeft : webRTCCalling.isInCall s = true →
        0 < (s.store.calls.erase callId).entries.length := by
      intro inCall
      obtain ⟨other, call, there, -⟩ := someInCall_iff.mp inCall
      have differ : other ≠ callId := by
        rintro rfl
        rw [← System.active, here] at there
        cases there
      obtain ⟨r, lookup, -⟩ := Option.bind_eq_some_iff.mp ((mirrors.calls other).trans there)
      exact size_pos_iff.mpr ⟨other, r, (AList.lookup_erase_ne differ).trans lookup⟩
    constructor
    · intro after
      refine ⟨rfl, fun left => ?_⟩
      exact after.isInCall.symm.trans (decide_eq_true left)
    · rintro ⟨-, inCall⟩
      refine ⟨fun other => ?_, ?_, fun other current => ?_, mirrors.incomingCall⟩
      · by_cases same : other = callId
        · subst same
          exact get_erase.trans here.symm
        · exact (get_erase_ne same).trans (mirrors.calls other)
      · exact Bool.eq_iff_iff.mpr (decide_eq_true_iff.trans ⟨inCall, othersLeft⟩)
      · refine mirrors.currentCallId other ?_
        rw [dropCall] at current
        split at current
        · cases current
        · exact current

theorem endCall_mirrors_iff (sound : Sound s) (mirrors : Mirrors s) (callId : String) :
    Mirrors (endCall s callId) ↔ Spares s (.endCall callId) := by
  cases here : s.active callId with
  | some call =>
    have present : ((endCall s callId).active callId).isSome := by
      refine (serviceEndCall_active s callId).trans ?_
      rw [here]
      rfl
    refine iff_of_false (not_mirrors_of_dropped present get_erase) ?_
    rintro ⟨absent, -⟩
    rw [here] at absent
    cases absent
  | none =>
    have unmoved : webRTCCalling.endCall s callId = s := by
      rw [webRTCCalling.endCall, sound.active.get_none_iff.mp here]
    rw [endCall, unmoved]
    exact dropCall_mirrors_iff mirrors callId

theorem mirrors_step_iff (sound : Sound s) (mirrors : Mirrors s) (e : Event) :
    Mirrors (step s e).2 ↔ Spares s e := by
  cases e with
  | startCall callId peerId works => exact startCall_mirrors_iff sound mirrors callId peerId works
  | acceptCall callId answers =>
    exact iff_of_true (acceptCall_mirrors sound mirrors callId answers) trivial
  | rejectCall callId => exact rejectCall_mirrors_iff mirrors callId
  | endCall callId => exact endCall_mirrors_iff sound mirrors callId
  | message callId sender message works =>
    cases message with
    | offer =>
      cases works with
      | false => exact iff_of_true mirrors nofun
      | true =>
        refine (handleIncomingOffer_mirrors_iff sound mirrors callId sender).trans ?_
        simp only [Spares, true_implies]
    | answer => exact handleAnswer_mirrors_iff sound mirrors callId works
    | hangup reason => exact serviceEndCall_mirrors_iff sound mirrors callId
    | reject => exact dropCall_mirrors_iff mirrors callId
    | iceCandidate | busy | accept => exact iff_of_true mirrors trivial
  | dialTimeout callId => exact dialTimeout_mirrors_iff sound mirrors callId
  | cleanup callId => exact cleanup_mirrors_iff mirrors callId
  | ontrack callId => exact ontrack_mirrors_iff sound mirrors callId
  | onconnectionstatechange callId connectionState =>
    exact onconnectionstatechange_mirrors_iff sound mirrors callId connectionState

theorem mirrors_atLoad : Mirrors atLoad :=
  ⟨fun _ => rfl, rfl, nofun, nofun⟩

end

/-- What a listener of the store would have done: with the changed call in hand the store is in
step again. -/
theorem updateCallState_mirrors {s : System} {callId : String} {r : ℕ}
    (others : ∀ other, other ≠ callId → s.entry other = s.active other)
    (here : s.service.activeCalls.lookup callId = some r) :
    (∀ other, (updateCallState s callId r).entry other =
      (updateCallState s callId r).active other) ∧
    (updateCallState s callId r).store.isInCall =
      webRTCCalling.isInCall (updateCallState s callId r) := by
  have same : ∀ other, s.get (s.store.calls.insert callId r) other = s.active other := by
    intro other
    by_cases atId : other = callId
    · subst atId
      exact get_insert.trans (get_of_lookup here).symm
    · exact (get_insert_ne atId).trans (others other atId)
  refine ⟨same, Bool.eq_iff_iff.mpr ?_⟩
  refine someInCall_iff.trans (Iff.trans ?_ someInCall_iff.symm)
  exact exists_congr fun other => by rw [same]; rfl

theorem store_mirrors_iff (events : List Event) :
    (∀ front back, events = front ++ back → Mirrors (Mealy.final step atLoad front)) ↔
      Mealy.Along step Spares atLoad events := by
  have one : ∀ s e, Sound s ∧ Mirrors s →
      ((Sound (step s e).2 ∧ Mirrors (step s e).2) ↔ Spares s e) := by
    rintro s e ⟨sound, mirrors⟩
    rw [and_iff_right (sound_step sound e), mirrors_step_iff sound mirrors]
  rw [← Mealy.forall_final_iff_along one ⟨sound_atLoad, mirrors_atLoad⟩]
  refine forall₂_congr fun front back => forall_congr' fun _ => ?_
  have sound : Sound (Mealy.final step atLoad front) :=
    Mealy.final_preserved Sound (fun s e sound => sound_step sound e) sound_atLoad front
  exact (and_iff_right sound).symm

/-- A call that only dials is one the store is in. -/
theorem dialing_unmirrored : ¬ ∀ (events : List Event) (front back : List Event),
    events = front ++ back → Mirrors (Mealy.final step atLoad front) := by
  intro always
  have after := (always _ [.startCall "call_1" "bob" true] [] rfl).isInCall
  revert after
  decide

end CallStore
