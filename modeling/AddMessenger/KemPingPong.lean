import AddMessenger.KemRatchet
import AddMessenger.KemWire

/-!
# The KEM step of the ratchet

`advance_root_ratchet` and `handle_kem_request` of `crypto-pq/src/ratchet_pq.rs`: one party
asks with its encapsulation key, the other answers with a ciphertext, and the first mixes what
it decapsulates into its root key. `handle_kem_request` wraps the 1184 bytes of the key it was
sent with `pk_from_bytes`, which takes 1216.
-/

namespace KemPingPong

open ByteStrings Outcomes HybridKem
open KemWire (KemRatchetMessage)
open Signatures (PqError)

def rootKeyUpdateInfo : String := "add-pq-ratchet-root-update-v1"

variable (L : PqLibrary)

structure EphemeralKeys where
  x25519Pk : Sized UInt8 32
  mlkemDec : L.DecapsulationKey
  mlkemEnc : L.EncapsulationKey
  x25519Secret : Sized UInt8 32

/-- The chains, with the keys of the KEM step. -/
structure KemRatchetState extends KemRatchet.KemRatchetState where
  ourEphemeral : EphemeralKeys L
  theirMlkemEnc : L.EncapsulationKey
  theirX25519Pk : Sized UInt8 32

/-- What `advance_root_ratchet` draws. -/
structure StepDraws where
  secret : Sized UInt8 32
  keypair : KeyDraws L
  encaps : EncapsDraws L

variable {L}

def advanceRootRatchet (s : KemRatchetState L) (peerResponseCt : HybridCiphertext)
    (d : StepDraws L) :
    Outcome PqError ((HybridCiphertext × Sized UInt8 32) × KemRatchetState L) := do
  let newX25519Pk := L.x25519Public d.secret
  let (newMlkemEnc, newMlkemDec) := generateKeypair L d.keypair
  let epoch := (s.rootKey.headD 0).toUInt64
  let ourContext := makeKemContext epoch (UInt64.ofNat s.sendSeq)
  let (encapsCt, _) := encapsulate newMlkemEnc ourContext d.encaps
  let x25519Ss := L.diffieHellman d.secret s.theirX25519Pk
  let ourCt : HybridCiphertext := ⟨newX25519Pk, encapsCt.mlkemCt⟩
  let theirContext := makeKemContext epoch (UInt64.ofNat s.recvSeq)
  let sk ← (skFromBytes (L.decBytes s.ourEphemeral.mlkemDec).val).unwrap
  let decapsSs ← decapsulate L sk peerResponseCt theirContext
  let combinedSs :=
    combineSharedSecrets L x25519Ss decapsSs.val peerResponseCt.x25519Ct newX25519Pk
  let newRoot ← okOr (.derivationFailed "root key update")
    (hkdfExpand L s.rootKey combinedSs.val rootKeyUpdateInfo 32)
  return ((ourCt, combinedSs), { s with
    rootKey := newRoot.val
    ourEphemeral := {
      x25519Pk := newX25519Pk
      mlkemDec := L.fromSeed newMlkemDec
      mlkemEnc := newMlkemEnc.mlkemEnc
      x25519Secret := newX25519Pk } })

/-- The root key is not touched: the combined secret is dropped. -/
def handleKemRequest (s : KemRatchetState L) (msg : KemRatchetMessage) (e : EncapsDraws L) :
    Outcome PqError (HybridCiphertext × KemRatchetState L) := do
  let theirMlkemEnc ← okOr (.invalidKeyLength 1184 msg.mlkemEncKey.length)
    (L.newFromSlice msg.mlkemEncKey)
  let ourContext := makeKemContext msg.epoch msg.seq
  let tempPk ← (pkFromBytes L (L.encBytes theirMlkemEnc).val).unwrap
  let (encCt, encSs) := encapsulate tempPk ourContext e
  let x25519Ss := L.diffieHellman s.ourEphemeral.x25519Secret msg.x25519Pk
  let _combinedSs :=
    combineSharedSecrets L x25519Ss encSs.val msg.x25519Pk s.ourEphemeral.x25519Pk
  return (⟨s.ourEphemeral.x25519Pk, encCt.mlkemCt⟩, { s with
    theirMlkemEnc := theirMlkemEnc
    theirX25519Pk := msg.x25519Pk })

/-- One exchange: the responder answers the message, the requester takes the answer, and both
have the same root key. -/
def Agrees (requester responder : KemRatchetState L) (msg : KemRatchetMessage)
    (e : EncapsDraws L) (d : StepDraws L) : Prop :=
  ∃ ct responder', handleKemRequest responder msg e = .ok (ct, responder') ∧
    ∃ out requester', advanceRootRatchet requester ct d = .ok (out, requester') ∧
      requester'.rootKey = responder'.rootKey

/-- An encapsulation key is 32 bytes too short for a combined key. -/
theorem handleKemRequest_eq (s : KemRatchetState L) (msg : KemRatchetMessage)
    (e : EncapsDraws L) :
    handleKemRequest s msg e =
      if (L.newFromSlice msg.mlkemEncKey).isSome then .panicked
      else .error (.invalidKeyLength 1184 msg.mlkemEncKey.length) := by
  cases read : L.newFromSlice msg.mlkemEncKey with
  | none =>
    rw [handleKemRequest, read]
    rfl
  | some key =>
    have short : (L.encBytes key).val.length ≠ combinedPkSize := by
      rw [(L.encBytes key).property]
      decide
    rw [handleKemRequest, read, okOr_some, Outcome.ok_bind, pkFromBytes_of_length_ne short]
    rfl

/-- No request is ever answered: a well-formed key panics, any other one is an error. -/
theorem handleKemRequest_never_answers (requester responder : KemRatchetState L)
    (msg : KemRatchetMessage) (e : EncapsDraws L) (d : StepDraws L) :
    (handleKemRequest responder msg e = .panicked ↔ (L.newFromSlice msg.mlkemEncKey).isSome) ∧
      ¬ Agrees requester responder msg e d := by
  rw [Agrees, handleKemRequest_eq]
  split
  case isTrue wellFormed => exact ⟨iff_of_true rfl wellFormed, fun ⟨_, _, answered, _⟩ => by
    cases answered⟩
  case isFalse malformed => exact ⟨iff_of_false (by simp) malformed, fun ⟨_, _, answered, _⟩ => by
    cases answered⟩

def partyKeys (byte : UInt8) : EphemeralKeys checksumLibrary where
  x25519Pk := sumBytes 32 [byte]
  mlkemDec := padTo 64 [byte]
  mlkemEnc := padTo mlkem768PkSize [byte]
  x25519Secret := sumBytes 32 [byte]

/-- One of two parties with one root key, each with the public keys of the other. -/
def party (ours theirs : UInt8) : KemRatchetState checksumLibrary where
  toKemRatchetState := KemRatchet.new (List.replicate 32 9) [] []
  ourEphemeral := partyKeys ours
  theirMlkemEnc := padTo mlkem768PkSize [theirs]
  theirX25519Pk := sumBytes 32 [theirs]

def request : KemRatchetMessage := KemWire.sampleMessage none

def requestDraws : StepDraws checksumLibrary := ⟨sumBytes 32 [3], checksumDraws, checksumEncaps⟩

theorem request_panics :
    (party 1 2).rootKey = (party 2 1).rootKey ∧
      (party 1 2).theirX25519Pk = (party 2 1).ourEphemeral.x25519Pk ∧
      (party 2 1).theirX25519Pk = (party 1 2).ourEphemeral.x25519Pk ∧
      request.mlkemEncKey.length = 1184 ∧
      (checksumLibrary.newFromSlice request.mlkemEncKey).isSome ∧
      handleKemRequest (party 2 1) request checksumEncaps = .panicked ∧
      ¬ Agrees (party 1 2) (party 2 1) request checksumEncaps requestDraws := by
  have sized : request.mlkemEncKey.length = mlkem768PkSize := List.length_replicate
  have read : (checksumLibrary.newFromSlice request.mlkemEncKey).isSome := by
    rw [checksumLibrary_newFromSlice, tryInto_of_length sized]
    rfl
  have panics : handleKemRequest (party 2 1) request checksumEncaps = .panicked := by
    rw [handleKemRequest_eq, if_pos read]
  refine ⟨rfl, rfl, rfl, sized, read, panics, ?_⟩
  rintro ⟨_, _, answered, _⟩
  rw [panics] at answered
  cases answered

end KemPingPong
