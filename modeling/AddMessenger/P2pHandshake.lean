import AddMessenger.Outcomes
import AddMessenger.Protocol

/-!
# The handshake of the p2p crate

`p2p/src/transport.rs` and `p2p/src/handshake.rs`: the initiator proves work in its hello, the
responder checks it and answers with a challenge. What each side receives, the random numbers
and the clock are arguments, and so are JSON text and Argon2id.
-/

namespace P2pHandshake

open ByteStrings Outcomes Protocol

inductive P2pError where
  | connection (text : String)
  | serialization (text : String)
  | handshake (text : String)
  | timeout
  deriving DecidableEq

/-- The envelope with all its fields; the time is the bits of an `f64`. -/
structure Envelope extends WireEnvelope where
  msgId : String
  ts : UInt64

/-- `WireEnvelope::to_json` and `WireEnvelope::from_json`. -/
structure EnvelopeJson where
  toJson : Envelope → Except String String
  fromJson : String → Except String Envelope

/-- The envelope is read back from its text. -/
def EnvelopeJson.ReadsBack (J : EnvelopeJson) (env : Envelope) : Prop :=
  ∃ text, J.toJson env = .ok text ∧ J.fromJson text = .ok env

/-- The text of an envelope made at time zero, without escapes. -/
def envelopeText (env : Envelope) : String :=
  "\x7b\"type\":\"" ++ env.msgType ++ "\",\"payload\":" ++ compact env.payload ++
    ",\"msg_id\":\"" ++ env.msgId ++ "\",\"ts\":0.0,\"sig\":\"" ++ env.sig ++ "\"\x7d"

/-- The texts of the given envelopes are read back. -/
def knownEnvelopes (known : List Envelope) : EnvelopeJson where
  toJson env := .ok (envelopeText env)
  fromJson text :=
    match known.find? fun env => envelopeText env == text with
    | some env => .ok env
    | none => .error "EOF while parsing a value at line 1 column 0"

theorem knownEnvelopes_readsBack {known : List Envelope}
    (distinct : ∀ a ∈ known, ∀ b ∈ known, envelopeText a = envelopeText b → a = b)
    {env : Envelope} (member : env ∈ known) : (knownEnvelopes known).ReadsBack env := by
  refine ⟨envelopeText env, rfl, ?_⟩
  have found : (known.find? fun e => envelopeText e == envelopeText env).isSome = true :=
    List.find?_isSome.mpr ⟨env, member, beq_self_eq_true _⟩
  obtain ⟨other, seen⟩ := Option.isSome_iff_exists.mp found
  have same : envelopeText other = envelopeText env := by
    simpa using List.find?_some seen
  have equal : other = env := distinct other (List.mem_of_find?_eq_some seen) env member same
  simp only [knownEnvelopes, seen, equal]

/-- What waiting for the next frame of a connection comes to. -/
inductive Received where
  | text (frame : String)
  | close
  | other
  | failed (e : String)
  | ended
  | timeout
  deriving DecidableEq

variable (J : EnvelopeJson)

def recvEnvelope : Received → Except P2pError Envelope
  | .timeout => .error .timeout
  | .ended => .error (.connection "connection closed")
  | .text frame => (J.fromJson frame).mapError .serialization
  | .close => .error (.connection "connection closed")
  | .failed e => .error (.connection e)
  | .other => .error (.connection "unexpected message type")

/-- The text that `send_envelope` puts on the wire. -/
def sendEnvelope (env : Envelope) : Except P2pError String :=
  (J.toJson env).mapError .serialization

/-- The id and the time of an envelope. -/
structure Stamp where
  msgId : String
  ts : UInt64

def jsonNat (n : Nat) : Json := .number (.posInt (UInt64.ofNat n))

/-- The fields of a payload stand in the order of the map. -/
def buildP2pHello (publicKey : String) (nonce : UInt64) (powBits : Nat)
    (kyberEncKey sealedIdentity : String) (stamp : Stamp) : Envelope where
  msgType := "p2p-hello"
  payload := .object [("braid", .bool true), ("kyber_enc_key", .string kyberEncKey),
    ("nonce", .number (.posInt nonce)), ("pow_bits", jsonNat powBits),
    ("public_key", .string publicKey), ("sealed_identity", .string sealedIdentity)]
  msgId := stamp.msgId
  ts := stamp.ts
  sig := ""

def buildP2pHelloAck (publicKey : String) (nonce : UInt64) (powBits : Nat)
    (serverChallenge kyberEncKey : String) (stamp : Stamp) : Envelope where
  msgType := "p2p-hello-ack"
  payload := .object [("braid", .bool true), ("kyber_enc_key", .string kyberEncKey),
    ("nonce", .number (.posInt nonce)), ("pow_bits", jsonNat powBits),
    ("public_key", .string publicKey), ("server_challenge", .string serverChallenge)]
  msgId := stamp.msgId
  ts := stamp.ts
  sig := ""

variable (argon2id : Argon2id)

def helloPowBits : Nat := 16

def verifyHelloPow (publicKey : String) (nonce : UInt64) (difficulty : Nat)
    (nodeSecret : Bytes) : Bool :=
  match powCheck argon2id s!"{publicKey}{nonce}" nonce difficulty nodeSecret with
  | .ok found => found
  | .error _ => false

/-- The loop of `solve_hello_pow`, which wraps at the last nonce. -/
def tryNonces (publicKey : String) (difficulty : Nat) (nodeSecret : Bytes) :
    Nat → UInt64 → Option UInt64
  | 0, _ => none
  | left + 1, nonce =>
    if verifyHelloPow argon2id publicKey nonce difficulty nodeSecret then some nonce
    else tryNonces publicKey difficulty nodeSecret left (nonce + 1)

def solveHelloPow (publicKey : String) (baseNonce : UInt64) (difficulty : Nat)
    (nodeSecret : Bytes) : Option UInt64 :=
  tryNonces argon2id publicKey difficulty nodeSecret 1000000 baseNonce

def payloadU64 (env : Envelope) (key : String) : UInt64 :=
  ((env.payload.get key).bind Json.asU64).getD 0

def payloadText (env : Envelope) (key : String) : String :=
  ((env.payload.get key).bind Json.asStr).getD ""

/-- `as u32` keeps the low half. -/
def powBitsOf (env : Envelope) : Nat := (payloadU64 env "pow_bits").toNat % 2 ^ 32

/-- The range check that both sides make. -/
def InRange (env : Envelope) : Prop :=
  ¬ (1000000000 < payloadU64 env "nonce" ∨ powBitsOf env < minPowDifficulty ∨
    32 < powBitsOf env)

instance (env : Envelope) : Decidable (InRange env) := by unfold InRange; infer_instance

def outOfRange : P2pError :=
  .handshake "invalid PoW parameters: nonce out of range or difficulty below minimum"

structure Party where
  publicKey : String
  kyberEncKey : String

/-- `handshake_initiator` up to its hello. -/
def initiatorHello (me : Party) (baseNonce : UInt64) (stamp : Stamp) :
    Except P2pError Envelope :=
  match solveHelloPow argon2id me.publicKey baseNonce helloPowBits (asBytes me.publicKey) with
  | some nonce => .ok (buildP2pHello me.publicKey nonce helloPowBits me.kyberEncKey "" stamp)
  | none => .error (.handshake "failed to solve PoW within attempt budget")

/-- The rest of `handshake_initiator`, on the answer. -/
def initiatorFinish (received : Received) : Except P2pError Envelope :=
  match recvEnvelope J received with
  | .error e => .error e
  | .ok ack =>
    if ack.msgType ≠ "p2p-hello-ack" then
      .error (.handshake ("expected p2p-hello-ack, got " ++ ack.msgType))
    else if ¬ InRange ack then .error outOfRange
    else if payloadText ack "server_challenge" = "" then
      .error (.handshake "hello-ack missing server_challenge")
    else .ok ack

/-- The check of a hello in `handshake_responder`. -/
def checkHello (received : Received) : Except P2pError Envelope :=
  match recvEnvelope J received with
  | .error e => .error e
  | .ok hello =>
    let peerKey := payloadText hello "public_key"
    if hello.msgType ≠ "p2p-hello" then
      .error (.handshake ("expected p2p-hello, got " ++ hello.msgType))
    else if ¬ InRange hello then .error outOfRange
    else if verifyHelloPow argon2id peerKey (payloadU64 hello "nonce") (powBitsOf hello)
        (asBytes peerKey) = false then
      .error (.handshake "peer PoW verification failed")
    else .ok hello

def responderAck (me : Party) (challenge : Sized UInt8 16) (stamp : Stamp) : Envelope :=
  buildP2pHelloAck me.publicKey 0 0 (hexEncode challenge.val) me.kyberEncKey stamp

/-- `handshake_responder`: its result, and the frame it has sent. -/
def handshakeResponder (me : Party) (challenge : Sized UInt8 16) (stamp : Stamp)
    (received : Received) : Except P2pError Envelope × Option String :=
  match checkHello J argon2id received with
  | .error e => (.error e, none)
  | .ok hello =>
    match sendEnvelope J (responderAck me challenge stamp) with
    | .error e => (.error e, none)
    | .ok frame => (.ok hello, some frame)

/-- Both sides' random numbers and clocks. -/
structure Draws where
  baseNonce : UInt64
  challenge : Sized UInt8 16
  helloAt : Stamp
  ackAt : Stamp

/-- `handshake_initiator` and `handshake_responder` on the two ends of one connection: the
initiator's result and the responder's. A side that gives up hangs up. -/
def runHandshake (a b : Party) (draws : Draws) :
    Except P2pError Envelope × Except P2pError Envelope :=
  let respond := handshakeResponder J argon2id b draws.challenge draws.ackAt
  match initiatorHello argon2id a draws.baseNonce draws.helloAt with
  | .error e => (.error e, (respond .ended).1)
  | .ok hello =>
    match sendEnvelope J hello with
    | .error e => (.error e, (respond .ended).1)
    | .ok frame =>
      let (result, reply) := respond (.text frame)
      (initiatorFinish J (match reply with | some frame => .text frame | none => .ended), result)

/-- The responder ends with the hello and the initiator with the ack. -/
def Completed (a b : Party) (draws : Draws) : Prop :=
  ∃ hello, initiatorHello argon2id a draws.baseNonce draws.helloAt = .ok hello ∧
    runHandshake J argon2id a b draws =
      (.ok (responderAck b draws.challenge draws.ackAt), .ok hello)

section

variable {argon2id} {J}

theorem tryNonces_sound {publicKey : String} {difficulty : Nat} {secret : Bytes} {left : Nat}
    {base nonce : UInt64}
    (solved : tryNonces argon2id publicKey difficulty secret left base = some nonce) :
    verifyHelloPow argon2id publicKey nonce difficulty secret = true := by
  induction left generalizing base with
  | zero => cases solved
  | succ left ih =>
    rw [tryNonces] at solved
    split at solved
    · next holds =>
      cases solved
      exact holds
    · exact ih solved

theorem recvEnvelope_sent {env : Envelope} {frame : String}
    (read : J.fromJson frame = .ok env) : recvEnvelope J (.text frame) = .ok env := by
  rw [recvEnvelope, read]
  rfl

theorem EnvelopeJson.ReadsBack.sent {env : Envelope} (back : J.ReadsBack env) :
    ∃ frame, sendEnvelope J env = .ok frame ∧ recvEnvelope J (.text frame) = .ok env := by
  obtain ⟨text, shown, read⟩ := back
  exact ⟨text, by rw [sendEnvelope, shown]; rfl, recvEnvelope_sent read⟩

/-- The responder checks the range of the nonce, which the initiator draws from all. -/
theorem checkHello_honest {me : Party} {base nonce : UInt64} {stamp : Stamp} {frame : String}
    (solved : solveHelloPow argon2id me.publicKey base helloPowBits (asBytes me.publicKey) =
      some nonce)
    (read : recvEnvelope J (.text frame) =
      .ok (buildP2pHello me.publicKey nonce helloPowBits me.kyberEncKey "" stamp)) :
    checkHello J argon2id (.text frame) =
      if 1000000000 < nonce then .error outOfRange
      else .ok (buildP2pHello me.publicKey nonce helloPowBits me.kyberEncKey "" stamp) := by
  have range : InRange (buildP2pHello me.publicKey nonce helloPowBits me.kyberEncKey "" stamp) ↔
      ¬ 1000000000 < nonce := by
    change ¬ (1000000000 < nonce ∨ 16 < 8 ∨ 32 < 16) ↔ _
    norm_num
  have holds : verifyHelloPow argon2id me.publicKey nonce helloPowBits (asBytes me.publicKey) =
      true := tryNonces_sound solved
  have typed :
      ¬ (buildP2pHello me.publicKey nonce helloPowBits me.kyberEncKey "" stamp).msgType ≠
        "p2p-hello" := not_not_intro rfl
  simp only [checkHello, read]
  rw [if_neg typed]
  by_cases high : 1000000000 < nonce
  · rw [if_pos high, if_pos fun inside => range.mp inside high]
  · rw [if_neg high, if_neg (not_not_intro (range.mpr high))]
    refine if_neg ?_
    rw [Bool.not_eq_false]
    exact holds

/-- The initiator wants a proof of work from the responder, which makes none. -/
theorem initiatorFinish_ack {me : Party} {challenge : Sized UInt8 16} {stamp : Stamp}
    {frame : String} (read : recvEnvelope J (.text frame) = .ok (responderAck me challenge stamp)) :
    initiatorFinish J (.text frame) = .error outOfRange := by
  have outside : ¬ InRange (responderAck me challenge stamp) :=
    not_not_intro (.inr (.inl (show 0 < 8 by decide)))
  have typed : ¬ (responderAck me challenge stamp).msgType ≠ "p2p-hello-ack" := not_not_intro rfl
  simp only [initiatorFinish, read]
  rw [if_neg typed, if_pos outside]

end

section

variable {argon2id} {J}
variable {a b : Party} {draws : Draws} {nonce : UInt64}

/-- How the handshake of honest parties ends: the responder accepts a small nonce only, and the
initiator never accepts. -/
theorem runHandshake_honest
    (solved : solveHelloPow argon2id a.publicKey draws.baseNonce helloPowBits
      (asBytes a.publicKey) = some nonce)
    (helloBack : J.ReadsBack
      (buildP2pHello a.publicKey nonce helloPowBits a.kyberEncKey "" draws.helloAt))
    (ackBack : J.ReadsBack (responderAck b draws.challenge draws.ackAt)) :
    runHandshake J argon2id a b draws =
      if 1000000000 < nonce then
        (.error (.connection "connection closed"), .error outOfRange)
      else (.error outOfRange,
        .ok (buildP2pHello a.publicKey nonce helloPowBits a.kyberEncKey "" draws.helloAt)) := by
  have hello : initiatorHello argon2id a draws.baseNonce draws.helloAt =
      .ok (buildP2pHello a.publicKey nonce helloPowBits a.kyberEncKey "" draws.helloAt) := by
    rw [initiatorHello, solved]
  obtain ⟨helloFrame, helloSent, helloRead⟩ := helloBack.sent
  obtain ⟨ackFrame, ackSent, ackRead⟩ := ackBack.sent
  rw [runHandshake, hello]
  simp only [helloSent, handshakeResponder, checkHello_honest solved helloRead]
  by_cases high : 1000000000 < nonce
  · simp only [if_pos high]
    rfl
  · simp only [if_neg high, ackSent, initiatorFinish_ack ackRead]

/-- No handshake of honest parties completes. -/
theorem handshake_never_completes
    (solved : solveHelloPow argon2id a.publicKey draws.baseNonce helloPowBits
      (asBytes a.publicKey) = some nonce)
    (helloBack : J.ReadsBack
      (buildP2pHello a.publicKey nonce helloPowBits a.kyberEncKey "" draws.helloAt))
    (ackBack : J.ReadsBack (responderAck b draws.challenge draws.ackAt)) :
    ¬ Completed J argon2id a b draws := by
  rintro ⟨hello, -, completed⟩
  rw [runHandshake_honest solved helloBack ackBack] at completed
  split at completed
  · cases completed
  · cases completed

end

def zeroHash : Argon2id := fun _ _ => .ok ⟨List.replicate 32 0, rfl⟩

def alice : Party := ⟨"QQ==", "Qg=="⟩

def bob : Party := ⟨"Qw==", "RA=="⟩

def drawsFrom (baseNonce : UInt64) : Draws :=
  ⟨baseNonce, ⟨List.replicate 16 1, rfl⟩, ⟨"a1", 0⟩, ⟨"b2", 0⟩⟩

def helloFrom (nonce : UInt64) : Envelope :=
  buildP2pHello alice.publicKey nonce helloPowBits alice.kyberEncKey "" (drawsFrom nonce).helloAt

def ackFrom (nonce : UInt64) : Envelope :=
  responderAck bob (drawsFrom nonce).challenge (drawsFrom nonce).ackAt

/-- A nonce that half of all draws exceed. -/
def largeNonce : UInt64 := 9223372036854775808

theorem small_differs : envelopeText (helloFrom 7) ≠ envelopeText (ackFrom 7) := by
  decide +kernel

theorem large_differs :
    envelopeText (helloFrom largeNonce) ≠ envelopeText (ackFrom largeNonce) := by
  decide +kernel

/-- The texts of the two frames. -/
def twoFrames (nonce : UInt64) : EnvelopeJson := knownEnvelopes [helloFrom nonce, ackFrom nonce]

theorem twoFrames_distinct {nonce : UInt64}
    (differ : envelopeText (helloFrom nonce) ≠ envelopeText (ackFrom nonce)) :
    ∀ a ∈ [helloFrom nonce, ackFrom nonce], ∀ b ∈ [helloFrom nonce, ackFrom nonce],
      envelopeText a = envelopeText b → a = b := by
  simp only [List.mem_cons, List.not_mem_nil, or_false]
  rintro a (rfl | rfl) b (rfl | rfl) same
  · rfl
  · exact absurd same differ
  · exact absurd same.symm differ
  · rfl

theorem twoFrames_hello {nonce : UInt64}
    (differ : envelopeText (helloFrom nonce) ≠ envelopeText (ackFrom nonce)) :
    (twoFrames nonce).ReadsBack (helloFrom nonce) :=
  knownEnvelopes_readsBack (twoFrames_distinct differ) (by simp)

theorem twoFrames_ack {nonce : UInt64}
    (differ : envelopeText (helloFrom nonce) ≠ envelopeText (ackFrom nonce)) :
    (twoFrames nonce).ReadsBack (ackFrom nonce) :=
  knownEnvelopes_readsBack (twoFrames_distinct differ) (by simp)

/-- The first nonce solves. -/
theorem zeroHash_solves (nonce : UInt64) :
    solveHelloPow zeroHash alice.publicKey nonce helloPowBits (asBytes alice.publicKey) =
      some nonce := by
  rw [solveHelloPow, tryNonces]
  exact if_pos rfl

theorem handshake_never_completes_from_seven :
    ¬ Completed (twoFrames 7) zeroHash alice bob (drawsFrom 7) :=
  handshake_never_completes (zeroHash_solves 7) (twoFrames_hello small_differs)
    (twoFrames_ack small_differs)

/-- A small nonce fails at the initiator and a large one at the responder. -/
theorem honest_handshakes_fail :
    runHandshake (twoFrames 7) zeroHash alice bob (drawsFrom 7) =
      (.error outOfRange, .ok (helloFrom 7)) ∧
    runHandshake (twoFrames largeNonce) zeroHash alice bob (drawsFrom largeNonce) =
      (.error (.connection "connection closed"), .error outOfRange) ∧
    ¬ Completed (twoFrames 7) zeroHash alice bob (drawsFrom 7) := by
  have small := runHandshake_honest (zeroHash_solves 7) (twoFrames_hello small_differs)
    (twoFrames_ack small_differs)
  have large := runHandshake_honest (zeroHash_solves largeNonce)
    (twoFrames_hello large_differs) (twoFrames_ack large_differs)
  rw [if_neg (by decide)] at small
  rw [if_pos (by decide +kernel)] at large
  refine ⟨small, large, ?_⟩
  rintro ⟨hello, -, completed⟩
  rw [small] at completed
  cases completed

end P2pHandshake
