import AddMessenger.KemPingPong
import AddMessenger.Pqxdh

/-!
# The ephemeral keys of the KEM ratchet

`from_pqxdh`, `advance_root_ratchet`, `handle_kem_request` and `ratchet_epoch` of
`crypto-pq/src/ratchet_pq.rs` replace parts of `our_ephemeral`. The X25519 secret they put
there is a public key that was sent, and the decapsulation key is that of a seed of zeros or
of the hash of an encapsulation key that was sent.
-/

namespace KemPingPong

open ByteStrings Outcomes HybridKem
open KemWire (KemRatchetMessage)
open Pqxdh (PqxDhRatchetState)
open Signatures (PqError)

variable (L : PqLibrary)

def chainKeyUpdateInfo : String := "add-pq-ratchet-chain-update-v1"

def zeroSeed : Sized UInt8 64 := ⟨List.replicate 64 0, List.length_replicate⟩

theorem length_zeroKey : (List.replicate 32 (0 : UInt8)).length = 32 := List.length_replicate

def zeroKey : Sized UInt8 32 := ⟨List.replicate 32 0, length_zeroKey⟩

/-- What a ratchet is made from. -/
structure Opening where
  base : PqxDhRatchetState
  ourEphemeralPk : Sized UInt8 32
  theirEphemeralPk : Sized UInt8 32
  theirMlkemEnc : L.EncapsulationKey

variable {L}

/-- The X25519 secret is our public key, and the encapsulation key is theirs. -/
def fromPqxdh (o : Opening L) : KemRatchetState L where
  toKemRatchetState :=
    KemRatchet.new o.base.rootKey.val o.base.sendChainKey.val o.base.recvChainKey.val
  ourEphemeral := {
    x25519Pk := o.ourEphemeralPk
    mlkemDec := L.fromSeed zeroSeed
    mlkemEnc := o.theirMlkemEnc
    x25519Secret := o.ourEphemeralPk }
  theirMlkemEnc := o.theirMlkemEnc
  theirX25519Pk := o.theirEphemeralPk

/-- The new public key is put beside the old secret. -/
def ratchetEpoch (s : KemRatchetState L) (ourKeypair : HybridKeypair L)
    (peerMlkemEnc : L.EncapsulationKey) (e : EncapsDraws L) :
    Outcome PqError ((HybridCiphertext × Sized UInt8 32) × KemRatchetState L) := do
  let x25519Pk := L.x25519Public e.ephemeral
  let dhSs := L.diffieHellman e.ephemeral s.theirX25519Pk
  let (mlkemCt, mlkemSs) := L.encapsulate peerMlkemEnc e.coins
  let x25519Ct := x25519Pk
  let combinedSs := combineSharedSecrets L dhSs mlkemSs.val x25519Ct ourKeypair.x25519Public
  let newChainKey ← okOr (.derivationFailed "ratchet chain update")
    (hkdfExpand L s.sendChainKey combinedSs.val chainKeyUpdateInfo 32)
  return ((⟨x25519Ct, mlkemCt.val⟩, combinedSs), { s with
    sendChainKey := newChainKey.val
    ourEphemeral := { s.ourEphemeral with x25519Pk := x25519Pk } })

variable (L)

inductive Operation where
  | advanceRootRatchet (peerResponseCt : HybridCiphertext) (d : StepDraws L)
  | handleKemRequest (msg : KemRatchetMessage) (e : EncapsDraws L)
  | ratchetEpoch (ourKeypair : HybridKeypair L) (peerMlkemEnc : L.EncapsulationKey)
      (e : EncapsDraws L)

/-- What we send: the public key of the handshake, the ciphertexts, and the encapsulation key
of a new bundle. -/
inductive Sent where
  | opened (ourEphemeralPk : Sized UInt8 32)
  | advanced (ourCt : HybridCiphertext) (mlkemEnc : Sized UInt8 mlkem768PkSize)
  | answered (responseCt : HybridCiphertext)
  | epoch (ct : HybridCiphertext)

variable {L}

/-- An operation that fails sends nothing and leaves the state as it was. -/
def operate (s : KemRatchetState L) : Operation L → Option Sent × KemRatchetState L
  | .advanceRootRatchet peerResponseCt d =>
    match advanceRootRatchet s peerResponseCt d with
    | .ok ((ourCt, _), s) => (some (.advanced ourCt (L.encBytes s.ourEphemeral.mlkemEnc)), s)
    | _ => (none, s)
  | .handleKemRequest msg e =>
    match handleKemRequest s msg e with
    | .ok (responseCt, s) => (some (.answered responseCt), s)
    | _ => (none, s)
  | .ratchetEpoch ourKeypair peerMlkemEnc e =>
    match ratchetEpoch s ourKeypair peerMlkemEnc e with
    | .ok ((ct, _), s) => (some (.epoch ct), s)
    | _ => (none, s)

def reached (o : Opening L) (ops : List (Operation L)) : KemRatchetState L :=
  Mealy.final operate (fromPqxdh o) ops

/-- Everything we have sent. -/
def wire (o : Opening L) (ops : List (Operation L)) : List Sent :=
  .opened o.ourEphemeralPk :: (Mealy.outputs operate (fromPqxdh o) ops).reduceOption

/-- Another run sends the same and has another value in the end. -/
def Hidden {α : Type} (value : KemRatchetState L → α) (o : Opening L)
    (ops : List (Operation L)) : Prop :=
  ∃ o' ops', wire o' ops' = wire o ops ∧ value (reached o' ops') ≠ value (reached o ops)

/-- The public keys of the bundle are those of its secrets, and what was sent does not give
the secrets. -/
structure RealKeys (o : Opening L) (ops : List (Operation L)) : Prop where
  x25519 : (reached o ops).ourEphemeral.x25519Pk =
    L.x25519Public (reached o ops).ourEphemeral.x25519Secret
  mlkem : (reached o ops).ourEphemeral.mlkemEnc =
    L.encapsulationKey (reached o ops).ourEphemeral.mlkemDec
  x25519Hidden : Hidden (fun s => s.ourEphemeral.x25519Secret) o ops
  mlkemHidden : Hidden (fun s => s.ourEphemeral.mlkemDec) o ops

/-- Both secrets, as far as the last messages tell them. -/
def secretsAfter (L : PqLibrary) (secrets : Sized UInt8 32 × L.DecapsulationKey) :
    Sent → Sized UInt8 32 × L.DecapsulationKey
  | .opened ourEphemeralPk => (ourEphemeralPk, L.fromSeed zeroSeed)
  | .advanced ourCt mlkemEnc => (ourCt.x25519Ct, seedToDecapKey L mlkemEnc)
  | .answered _ | .epoch _ => secrets

def secrets (s : KemRatchetState L) : Sized UInt8 32 × L.DecapsulationKey :=
  (s.ourEphemeral.x25519Secret, s.ourEphemeral.mlkemDec)

/-- The bundle of an advance: the secret is the public key, and the decapsulation key is
computed from the encapsulation key. -/
theorem advanceRootRatchet_ok {s s' : KemRatchetState L} {ct ourCt : HybridCiphertext}
    {d : StepDraws L} {combinedSs : Sized UInt8 32}
    (done : advanceRootRatchet s ct d = .ok ((ourCt, combinedSs), s')) :
    ourCt.x25519Ct = s'.ourEphemeral.x25519Pk ∧
      s'.ourEphemeral.x25519Secret = s'.ourEphemeral.x25519Pk ∧
      s'.ourEphemeral.mlkemDec = seedToDecapKey L (L.encBytes s'.ourEphemeral.mlkemEnc) := by
  simp only [advanceRootRatchet] at done
  obtain ⟨sk, -, done⟩ := Outcome.bind_eq_ok.mp done
  obtain ⟨decapsSs, -, done⟩ := Outcome.bind_eq_ok.mp done
  obtain ⟨newRoot, -, done⟩ := Outcome.bind_eq_ok.mp done
  cases done
  refine ⟨rfl, rfl, ?_⟩
  show L.fromSeed (generateKeypair L d.keypair).2 = _
  rw [generateKeypair, seedToDecapKey, L.decBytes_fromSeed]

/-- An epoch has a new public key and leaves the rest of the bundle. -/
theorem ratchetEpoch_ok {s s' : KemRatchetState L} {kp : HybridKeypair L}
    {enc : L.EncapsulationKey} {e : EncapsDraws L} {ct : HybridCiphertext}
    {combinedSs : Sized UInt8 32} (done : ratchetEpoch s kp enc e = .ok ((ct, combinedSs), s')) :
    s'.ourEphemeral = { s.ourEphemeral with x25519Pk := L.x25519Public e.ephemeral } := by
  simp only [ratchetEpoch] at done
  obtain ⟨newChainKey, -, done⟩ := Outcome.bind_eq_ok.mp done
  cases done
  rfl

theorem handleKemRequest_ne_ok {s s' : KemRatchetState L} {msg : KemRatchetMessage}
    {e : EncapsDraws L} {ct : HybridCiphertext} :
    handleKemRequest s msg e ≠ .ok (ct, s') := by
  rw [handleKemRequest_eq]
  split <;> exact fun same => by cases same

/-- What is sent tells the secrets that the operation leaves. -/
theorem secrets_operate (s : KemRatchetState L) (op : Operation L) :
    secrets (operate s op).2 = (operate s op).1.elim (secrets s) (secretsAfter L (secrets s)) := by
  cases op with
  | advanceRootRatchet ct d =>
    simp only [operate]
    split
    · next ourCt combinedSs s' done =>
      obtain ⟨sent, secret, dec⟩ := advanceRootRatchet_ok done
      show (_, _) = (_, _)
      rw [secret, dec, sent]
    · rfl
  | handleKemRequest msg e =>
    simp only [operate]
    split
    · next answered => exact absurd answered handleKemRequest_ne_ok
    · rfl
  | ratchetEpoch kp enc e =>
    simp only [operate]
    split
    · next ct combinedSs s' done =>
      have bundle := ratchetEpoch_ok done
      show (_, _) = (_, _)
      rw [bundle]
    · rfl

/-- The secrets of every state of a run are those that its messages tell. -/
theorem secrets_final (s : KemRatchetState L) (ops : List (Operation L)) :
    secrets (Mealy.final operate s ops) =
      (Mealy.outputs operate s ops).reduceOption.foldl (secretsAfter L) (secrets s) := by
  induction ops generalizing s with
  | nil => rfl
  | cons op rest ih =>
    rw [Mealy.final_cons, ih, secrets_operate, Mealy.outputs]
    cases (operate s op).1 with
    | none => rw [List.reduceOption_cons_of_none]; rfl
    | some sent => rw [List.reduceOption_cons_of_some]; rfl

/-- The secrets that the messages of a run tell. -/
def secretsOfWire (L : PqLibrary) : List Sent → Sized UInt8 32 × L.DecapsulationKey :=
  List.foldl (secretsAfter L) (zeroKey, L.fromSeed zeroSeed)

theorem secrets_reached (o : Opening L) (ops : List (Operation L)) :
    secrets (reached o ops) = secretsOfWire L (wire o ops) :=
  secrets_final (fromPqxdh o) ops

/-- In every run both secrets are a function of what was sent, so no bundle is a real one. -/
theorem ephemeral_never_real (L : PqLibrary) :
    (∃ f : List Sent → Sized UInt8 32 × L.DecapsulationKey, ∀ o ops,
      ((reached o ops).ourEphemeral.x25519Secret, (reached o ops).ourEphemeral.mlkemDec) =
        f (wire o ops)) ∧
    ∀ (o : Opening L) (ops : List (Operation L)), ¬ RealKeys o ops := by
  refine ⟨⟨secretsOfWire L, secrets_reached⟩, fun o ops real => ?_⟩
  obtain ⟨o', ops', same, differ⟩ := real.x25519Hidden
  apply differ
  have told := secrets_reached o' ops'
  rw [same, ← secrets_reached] at told
  exact congrArg Prod.fst told

/-- A ratchet of the small library right after the handshake. -/
def smallOpening : Opening checksumLibrary where
  base := ⟨sumBytes 32 [9], sumBytes 32 [1], sumBytes 32 [2], 0, 0, true⟩
  ourEphemeralPk := sumBytes 32 [5]
  theirEphemeralPk := sumBytes 32 [6]
  theirMlkemEnc := padTo mlkem768PkSize [7]

theorem not_realKeys_small :
    (reached smallOpening []).ourEphemeral.x25519Secret = smallOpening.ourEphemeralPk ∧
      (reached smallOpening []).ourEphemeral.mlkemEnc ≠
        checksumLibrary.encapsulationKey (reached smallOpening []).ourEphemeral.mlkemDec ∧
      ¬ ∀ (o : Opening checksumLibrary) ops, RealKeys o ops := by
  have differ : (reached smallOpening []).ourEphemeral.mlkemEnc ≠
      checksumLibrary.encapsulationKey (reached smallOpening []).ourEphemeral.mlkemDec := by
    show padTo mlkem768PkSize [7] ≠ padTo mlkem768PkSize zeroSeed.val
    decide +kernel
  exact ⟨rfl, differ, fun real => differ (real smallOpening []).mlkem⟩

end KemPingPong
