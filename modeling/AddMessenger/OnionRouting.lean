import AddMessenger.RelayServer

/-!
# Messages of two hops

`onion-v1` of `relay/src/main.rs`: the entry relay wraps what it was given in a
`relay-forward` and hands it to its connection with the exit relay, which handles it as
every forward. The forward has no sender: it is the exit's own checks that look for one.
-/

namespace OnionRouting

open Doubles Handlers Handlers.Handler Protocol RelayMailbox RelayServer

inductive FederationMessage where
  | forward (req : RelayForward)
  | routeAdvertise (payload : Json)

/-- The channel to the task that writes to a peer's connection. -/
structure Channel where
  waiting : List FederationMessage
  receiving : Bool

def channelCapacity : Nat := 100

def Channel.hasRoom (ch : Channel) : Bool :=
  ch.receiving && ch.waiting.length < channelCapacity

def Channel.trySend (ch : Channel) (message : FederationMessage) : Option Channel :=
  if ch.hasRoom then some { ch with waiting := ch.waiting ++ [message] } else none

/-- The peers by their url, each with its channel if it has one. -/
abbrev Peers := String → Option (Option Channel)

def sendToPeer (peers : Peers) (url : String) (message : FederationMessage) : Bool × Peers :=
  match peers url with
  | some (some ch) =>
    match ch.trySend message with
    | some ch => (true, Function.update peers url (some (some ch)))
    | none => (false, peers)
  | _ => (false, peers)

/-- A reading of the clock by `now_unix`. -/
structure NowUnix where
  clock : Duration
  seconds : F64
  exact : seconds.value = clock.asSecsF64

/-- `as i64`: towards zero, and saturating. -/
def asI64 (x : F64) : Int64 :=
  let whole := if x.negative then -⌊x.magnitude⌋ else ⌊x.magnitude⌋
  Int64.ofInt (max (-2 ^ 63) (min (2 ^ 63 - 1) whole))

def exitRelayUrl (payload : Json) : String :=
  ((payload.get "exit_relay_url").bind Json.asStr).getD ""

def ciphertext (payload : Json) : String := ((payload.get "ciphertext").bind Json.asStr).getD ""

/-- The forward the entry relay makes up. -/
def onionForward (ourUrl : Option String) (payload : Json) (now later : NowUnix) :
    RelayForward where
  recipientNid := ""
  signedBlob := ciphertext payload
  senderNid := "onion"
  senderFp := ""
  seq := 0
  senderSig := ""
  timestamp := now.seconds
  nonce := asI64 later.seconds
  hopCount := 1
  via := []
  sourceRelayUrl := ourUrl.getD ""

/-- The exit may be out of reach: the answer is the same. -/
def onionV1 (ourUrl : Option String) (payload : Json) (now later : NowUnix) (peers : Peers) :
    Except String Unit × Peers :=
  if (exitRelayUrl payload).isEmpty || (ciphertext payload).isEmpty then
    (.error "onion-v1: missing exit_relay_url or ciphertext", peers)
  else
    let forward := onionForward ourUrl payload now later
    (.ok (), (sendToPeer peers (exitRelayUrl payload) (.forward forward)).2)

/-- A relay about to handle a message. -/
structure ExitRelay where
  cfg : ServerConfig
  state : ServerState
  env : Env

def ExitRelay.handles (exit : ExitRelay) (req : RelayForward) :
    Except Refusal Reply × ServerState :=
  (relayForward exit.cfg req exit.env).run exit.state

/-- An exit relay that has authenticated the sender of a forward, and that nothing else
keeps from storing it: it forwards, its clock agrees, nothing is locked, the database
works, the nonce is new. -/
structure Honest (exit : ExitRelay) (req : RelayForward) : Prop where
  federated : federationEnabled exit.cfg = true
  forwards : exit.cfg.allowRelay = true
  authenticated : ∃ peer, exit.state.federation.peers req.sourceRelayUrl = some peer ∧
    peer.authenticated = true
  inTime : isFresh exit.env.freshAt req.timestamp = true
  unlocked : exit.env.writeLocked = false ∧ exit.env.readLocked = false
  database : exit.env.dbError = none
  unseen : ∀ fp, ∀ n ∈ exit.state.seenNonceStrs fp, n.1 ≠ toString req.nonce

/-- At some time after it, the recipient fetches an entry that was not there before. -/
def StoresFor (exit : ExitRelay) (req : RelayForward) (nid : String) : Prop :=
  ∃ now readNow sqlOk,
    ∃ entry ∈ fetchMessages exit.cfg.mail (exit.handles req).2.mail nid now readNow sqlOk,
      entry ∉ fetchMessages exit.cfg.mail exit.state.mail nid now readNow sqlOk

/-- The forward waits in the channel of the exit relay's connection. -/
def Handed (before after : Peers) (url : String) (req : RelayForward) : Prop :=
  ∃ ch, before url = some (some ch) ∧
    after url = some (some { ch with waiting := ch.waiting ++ [.forward req] })

/-- What an acknowledgement of the entry relay says. `named` is the recipient in the
inner request of a ciphertext. -/
structure NotLost (named : String → Option String) (ourUrl : Option String) (payload : Json)
    (now later : NowUnix) (peers : Peers) : Prop where
  handed : (onionV1 ourUrl payload now later peers).1 = .ok () →
    Handed peers (onionV1 ourUrl payload now later peers).2 (exitRelayUrl payload)
      (onionForward ourUrl payload now later)
  stored : (onionV1 ourUrl payload now later peers).1 = .ok () →
    ∀ exit, Honest exit (onionForward ourUrl payload now later) →
      ∀ nid, named (ciphertext payload) = some nid →
        StoresFor exit (onionForward ourUrl payload now later) nid

section

variable {ourUrl : Option String} {payload : Json} {now later : NowUnix} {peers : Peers}

theorem onionV1_ok_iff : (onionV1 ourUrl payload now later peers).1 = .ok () ↔
    (exitRelayUrl payload).isEmpty = false ∧ (ciphertext payload).isEmpty = false := by
  rw [onionV1]
  cases (exitRelayUrl payload).isEmpty <;> cases (ciphertext payload).isEmpty <;> simp

/-- What is sent reaches the channel exactly if there is one with room. -/
theorem handed_iff (url : String) (req : RelayForward) :
    Handed peers (sendToPeer peers url (.forward req)).2 url req ↔
      ∃ ch, peers url = some (some ch) ∧ ch.hasRoom = true := by
  have longer : ∀ ch : Channel, ch ≠ { ch with waiting := ch.waiting ++ [.forward req] } := by
    intro ch same
    have waiting := congrArg (fun ch => ch.waiting.length) same
    simp at waiting
  constructor
  · rintro ⟨ch, connected, sent⟩
    refine ⟨ch, connected, ?_⟩
    by_contra full
    have kept : sendToPeer peers url (.forward req) = (false, peers) := by
      simp only [sendToPeer, connected, Channel.trySend, if_neg full]
    rw [kept] at sent
    exact longer ch (Option.some.inj (Option.some.inj (connected.symm.trans sent)))
  · rintro ⟨ch, connected, room⟩
    refine ⟨ch, connected, ?_⟩
    simp only [sendToPeer, connected, Channel.trySend, if_pos room, Function.update_self]

end

/-- Without a signature the checks stop before they look at anything else. -/
theorem storeChecks_unsigned (cfg : ServerConfig) {req : StoreRequest}
    (unsigned : req.senderSig = "") (env : Env) (s : ServerState) :
    (storeChecks cfg req env).run s = (.error (.error "missing sender signature"), s) := by
  have refused : (verifyStoreSignature cfg req env).run s =
      (.error (.error "missing sender signature"), s) := by
    refine run_bind_of_error ?_
    rw [unsigned]
    rfl
  exact run_bind_of_error refused

section

variable (exit : ExitRelay) {req : RelayForward} (unsigned : req.senderSig = "")
include unsigned

theorem inner_unsigned (tag : String) :
    (storeChecks exit.cfg (req.toStoreRequest tag) exit.env).run exit.state =
      (.error (.error "missing sender signature"), exit.state) :=
  storeChecks_unsigned exit.cfg unsigned exit.env exit.state

/-- No relay stores a forward without a signature, whatever its state. -/
theorem exit_keeps_state : (exit.handles req).2 = exit.state := by
  rw [ExitRelay.handles, relayForward]
  split
  · rfl
  · split
    · rfl
    · rw [run_asks_bind]
      split
      · rfl
      · split
        · rfl
        · split
          · rfl
          · rw [run_bind_of_error (inner_unsigned exit unsigned _)]

/-- An honest exit relay answers with an error. -/
theorem honest_exit_refuses {exit : ExitRelay} (honest : Honest exit req) (unvisited : req.via = [])
    (near : ¬ federationMaxRelayHops ≤ req.hopCount) :
    exit.handles req = (.error (.error "missing sender signature"), exit.state) := by
  obtain ⟨peer, known, authenticated⟩ := honest.authenticated
  have trusted : knownUnauthenticated exit.state.federation req.sourceRelayUrl = false := by
    rw [knownUnauthenticated, known, Option.any_some, authenticated, Bool.not_true]
  simp only [ExitRelay.handles, relayForward, honest.federated, honest.forwards, Bool.not_true,
    Bool.false_eq_true, if_false, run_asks_bind, trusted, unvisited, List.not_mem_nil, if_neg near]
  exact run_bind_of_error (inner_unsigned exit unsigned _)

end

theorem not_storesFor (exit : ExitRelay) {req : RelayForward} (unsigned : req.senderSig = "")
    (nid : String) : ¬ StoresFor exit req nid := by
  rintro ⟨now, readNow, sqlOk, entry, fetched, new⟩
  rw [exit_keeps_state exit unsigned] at fetched
  exact new fetched

/-- A relay with the clock of the entry relay that has authenticated it. -/
def exitOf (req : RelayForward) (clock : Duration) : ExitRelay where
  cfg := smallConfig (some "secret")
  state :=
    { started true with
      federation := ⟨fun url => if url = req.sourceRelayUrl then some ⟨0, true⟩ else none,
        fun _ => none, fun _ => none⟩ }
  env := { moment with freshAt := clock }

theorem exitOf_honest {req : RelayForward} {now : NowUnix} (stamped : req.timestamp = now.seconds) :
    Honest (exitOf req now.clock) req where
  federated := rfl
  forwards := rfl
  authenticated := ⟨⟨0, true⟩, if_pos rfl, rfl⟩
  inTime := by
    have same : age now.clock req.timestamp = 0 := by
      rw [age, stamped, now.exact, sub_self]
      exact nearest_natCast (Nat.zero_le _)
    simp [exitOf, isFresh, same]
  unlocked := ⟨rfl, rfl⟩
  database := rfl
  unseen := fun fp n none => absurd none List.not_mem_nil

theorem notLost_iff (named : String → Option String) (ourUrl : Option String)
    (payload : Json) (now later : NowUnix) (peers : Peers) :
    NotLost named ourUrl payload now later peers ↔
      (exitRelayUrl payload).isEmpty = true ∨ (ciphertext payload).isEmpty = true ∨
        (named (ciphertext payload) = none ∧
          ∃ ch, peers (exitRelayUrl payload) = some (some ch) ∧ ch.hasRoom = true) := by
  by_cases accepted : (onionV1 ourUrl payload now later peers).1 = .ok ()
  · obtain ⟨url, text⟩ := onionV1_ok_iff.mp accepted
    have sent : (onionV1 ourUrl payload now later peers).2 =
        (sendToPeer peers (exitRelayUrl payload)
          (.forward (onionForward ourUrl payload now later))).2 := by
      simp only [onionV1, url, text, Bool.or_false, Bool.false_eq_true, if_false]
    simp only [url, text, Bool.false_eq_true, false_or]
    constructor
    · intro kept
      have handed := kept.handed accepted
      rw [sent, handed_iff] at handed
      refine ⟨?_, handed⟩
      cases recipient : named (ciphertext payload) with
      | none => rfl
      | some nid =>
        have stored := kept.stored accepted _ (exitOf_honest rfl) nid recipient
        exact absurd stored (not_storesFor _ rfl nid)
    · rintro ⟨nobody, reachable⟩
      refine ⟨fun _ => ?_, fun _ exit _ nid recipient => ?_⟩
      · rw [sent, handed_iff]
        exact reachable
      · rw [nobody] at recipient
        cases recipient
  · refine iff_of_true ⟨fun ok => absurd ok accepted, fun ok => absurd ok accepted⟩ ?_
    rw [onionV1_ok_iff] at accepted
    cases url : (exitRelayUrl payload).isEmpty with
    | true => exact Or.inl rfl
    | false =>
      cases text : (ciphertext payload).isEmpty with
      | true => exact Or.inr (Or.inl rfl)
      | false => exact absurd ⟨url, text⟩ accepted

/-- An acknowledged message is not lost exactly if the request is refused, or if it has no
recipient and the exit relay is connected. An honest exit relay refuses every forward that
is made from one, and no relay stores it. -/
theorem onion_not_lost_iff (named : String → Option String) (ourUrl : Option String)
    (payload : Json) (now later : NowUnix) (peers : Peers) :
    (NotLost named ourUrl payload now later peers ↔
      (exitRelayUrl payload).isEmpty = true ∨ (ciphertext payload).isEmpty = true ∨
        (named (ciphertext payload) = none ∧
          ∃ ch, peers (exitRelayUrl payload) = some (some ch) ∧ ch.hasRoom = true)) ∧
    ∀ exit, (Honest exit (onionForward ourUrl payload now later) →
        (exit.handles (onionForward ourUrl payload now later)).1 =
          .error (.error "missing sender signature")) ∧
      (exit.handles (onionForward ourUrl payload now later)).2 = exit.state := by
  refine ⟨notLost_iff named ourUrl payload now later peers, fun exit => ⟨fun honest => ?_, ?_⟩⟩
  · have near : ¬ federationMaxRelayHops ≤ (1 : UInt8) := by decide
    rw [honest_exit_refuses rfl honest rfl near]
  · exact exit_keeps_state exit rfl

/-- A clock at a whole second. -/
def NowUnix.ofNat (n : Nat) (small : n ≤ 2 ^ 52) : NowUnix where
  clock := wholeSeconds n small
  seconds := F64.ofNat n (by omega)
  exact := by
    have whole : nearest n = n := nearest_natCast (by omega)
    have zero : nearest 0 = 0 := nearest_natCast (Nat.zero_le _)
    simp [Duration.asSecsF64, wholeSeconds, F64.ofNat, F64.value, whole, zero]

def noon : NowUnix := .ofNat 43200 (by decide)

def onionPayload : Json :=
  .object [("exit_relay_url", .string "ws://exit"), ("ciphertext", .string "to bob")]

def toBob (text : String) : Option String := if text = "to bob" then some "NN-bob" else none

def alone : Peers := fun _ => none

def connected : Peers := fun url => if url = "ws://exit" then some (some ⟨[], true⟩) else none

/-- Without any peer the request is acknowledged and handed to nobody; with the exit relay
connected it is handed over, and not stored there. -/
theorem onion_lost :
    (onionV1 none onionPayload noon noon alone).1 = .ok () ∧
    ¬ NotLost toBob none onionPayload noon noon alone ∧
    ¬ NotLost toBob none onionPayload noon noon connected := by
  have url : exitRelayUrl onionPayload = "ws://exit" := by decide
  have text : ciphertext onionPayload = "to bob" := by decide
  have named : toBob "to bob" ≠ none := by decide
  refine ⟨onionV1_ok_iff.mpr ?_, ?_, ?_⟩
  · rw [url, text]
    decide
  · simp [notLost_iff, url, text, alone]
  · simp [notLost_iff, url, text, named]

end OnionRouting
