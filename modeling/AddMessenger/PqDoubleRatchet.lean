import AddMessenger.KemEphemeral
import AddMessenger.KemReplay
import AddMessenger.Simulations

/-!
# The wrapper of the KEM ratchet

`PqDoubleRatchet` of `crypto-pq/src/ratchet_pq.rs`, around the `KemRatchetState` of one party.
Its `encrypt_message` returns the nonce of the ciphertext with a fresh ML-KEM ciphertext, and its
`decrypt_message` returns the key of the message; what AES-GCM makes of the text is dropped.
-/

namespace PqDoubleRatchet

open ByteStrings HybridKem Outcomes
open KemPingPong (KemRatchetState fromPqxdh ratchetEpoch rootKeyUpdateInfo)
open KemRatchet (PqError advanceTo getMessageKey maxSkipAhead storeSkippedKey)
open KemReplay (pruneSkippedKeys)
open Ratchet (Primitives Nonce)

variable (P : Primitives) {L : PqLibrary}

def encryptMessage (s : KemRatchetState L) (plaintext combinedSs : Bytes) (nonce : Nonce)
    (coins : L.Coins) : Except PqError (HybridCiphertext × Bytes) × KemRatchetState L :=
  match KemRatchet.encryptMessage P s.toKemRatchetState plaintext combinedSs nonce with
  | (.error e, inner) => (.error e, { s with toKemRatchetState := inner })
  | (.ok (_, nonce), inner) =>
    let (mlkemCt, _) := L.encapsulate s.ourEphemeral.mlkemEnc coins
    (.ok (⟨s.ourEphemeral.x25519Pk, mlkemCt.val⟩, nonce), { s with toKemRatchetState := inner })

def decryptMessage (s : KemRatchetState L) (seq : ℕ) (combinedSs _nonce _ciphertext : Bytes) :
    Except PqError Bytes × KemRatchetState L :=
  let gap := seq - s.recvSeq
  if gap > maxSkipAhead then
    (.error (.derivationFailed s!"seq gap too large: {gap} > {maxSkipAhead}"), s)
  else
    match advanceTo P seq combinedSs (seq + 1 - s.recvSeq) s.toKemRatchetState with
    | (.error e, inner) => (.error e, { s with toKemRatchetState := inner })
    | (.ok (), inner) =>
      match getMessageKey inner seq with
      | none => (.error (.decapsulationFailed "missing msg key"),
          { s with toKemRatchetState := inner })
      | some msgKey => (.ok msgKey, { s with toKemRatchetState := inner })

/-- The secret of the exchange is drawn and not kept. -/
def updateRootKey (s : KemRatchetState L) (peerEphPk ephSecret : Sized UInt8 32) :
    Except PqError Unit × KemRatchetState L :=
  match hkdfExpand L s.rootKey (L.diffieHellman ephSecret peerEphPk).val rootKeyUpdateInfo 32 with
  | none => (.error (.derivationFailed "root key update"), s)
  | some newRoot => (.ok (), { s with rootKey := newRoot.val })

variable (L) in
inductive Call where
  | encryptMessage (plaintext combinedSs : Bytes) (nonce : Nonce) (coins : L.Coins)
  | decryptMessage (seq : ℕ) (combinedSs nonce ciphertext : Bytes)
  | getSkippedKey (seq : ℕ)
  | storeSkippedKey (seq : ℕ) (msgKey : Bytes)
  | pruneSkippedKeys
  | ratchetEpoch (ourKeypair : HybridKeypair L) (peerMlkemEnc : L.EncapsulationKey)
      (e : EncapsDraws L)
  | updateRootKey (peerEphPk ephSecret : Sized UInt8 32)

inductive Answer where
  | encrypted (result : Except PqError (HybridCiphertext × Bytes))
  | decrypted (result : Except PqError Bytes)
  | key (found : Option Bytes)
  | done
  | epoch (result : Option (HybridCiphertext × Sized UInt8 32))
  | updated (result : Except PqError Unit)

def step (s : KemRatchetState L) : Call L → Answer × KemRatchetState L
  | .encryptMessage plaintext combinedSs nonce coins =>
    let (result, s) := encryptMessage P s plaintext combinedSs nonce coins
    (.encrypted result, s)
  | .decryptMessage seq combinedSs nonce ciphertext =>
    let (result, s) := decryptMessage P s seq combinedSs nonce ciphertext
    (.decrypted result, s)
  | .getSkippedKey seq => (.key (getMessageKey s.toKemRatchetState seq), s)
  | .storeSkippedKey seq msgKey =>
    (.done, { s with toKemRatchetState := storeSkippedKey s.toKemRatchetState seq msgKey })
  | .pruneSkippedKeys =>
    (.done, { s with toKemRatchetState := pruneSkippedKeys s.toKemRatchetState })
  | .ratchetEpoch ourKeypair peerMlkemEnc e =>
    match ratchetEpoch s ourKeypair peerMlkemEnc e with
    | .ok (sent, s) => (.epoch (some sent), s)
    | _ => (.epoch none, s)
  | .updateRootKey peerEphPk ephSecret =>
    let (result, s) := updateRootKey s peerEphPk ephSecret
    (.updated result, s)

/-- The calls differ at most in the text that is encrypted, of which AES-GCM takes the one when it
takes the other, or in the message that is decrypted. -/
inductive Alike : Call L → Call L → Prop where
  | encrypt {plaintext plaintext' : Bytes} (combinedSs : Bytes) (nonce : Nonce) (coins : L.Coins)
    (both : ∀ key nonce, (P.aesEncrypt key nonce plaintext).isSome =
      (P.aesEncrypt key nonce plaintext').isSome) :
    Alike (.encryptMessage plaintext combinedSs nonce coins)
      (.encryptMessage plaintext' combinedSs nonce coins)
  | decrypt (seq : ℕ) (combinedSs nonce nonce' ciphertext ciphertext' : Bytes) :
    Alike (.decryptMessage seq combinedSs nonce ciphertext)
      (.decryptMessage seq combinedSs nonce' ciphertext')
  | same (c : Call L) : Alike c c

section

variable {P}

theorem encryptMessage_alike {plaintext plaintext' : Bytes}
    (both : ∀ key nonce, (P.aesEncrypt key nonce plaintext).isSome =
      (P.aesEncrypt key nonce plaintext').isSome)
    (s : KemRatchetState L) (combinedSs : Bytes) (nonce : Nonce) (coins : L.Coins) :
    encryptMessage P s plaintext combinedSs nonce coins =
      encryptMessage P s plaintext' combinedSs nonce coins := by
  unfold encryptMessage KemRatchet.encryptMessage
  cases KemRatchet.advanceSendChain P s.toKemRatchetState combinedSs with
  | mk result inner =>
    cases result with
    | error e => rfl
    | ok done =>
      dsimp only
      cases getMessageKey inner (inner.sendSeq - 1) with
      | none => rfl
      | some msgKey =>
        dsimp only
        have alike := both msgKey (KemRatchet.mixNonce inner.rootKey nonce)
        cases first : P.aesEncrypt msgKey (KemRatchet.mixNonce inner.rootKey nonce) plaintext with
        | none =>
          cases second : P.aesEncrypt msgKey (KemRatchet.mixNonce inner.rootKey nonce)
              plaintext' with
          | none => rfl
          | some ciphertext' => simp [first, second] at alike
        | some ciphertext =>
          cases second : P.aesEncrypt msgKey (KemRatchet.mixNonce inner.rootKey nonce)
              plaintext' with
          | none => simp [first, second] at alike
          | some ciphertext' => rfl

theorem step_alike (s : KemRatchetState L) (c c' : Call L) (alike : Alike P c c') :
    step P s c = step P s c' := by
  cases alike with
  | encrypt combinedSs nonce coins both => simp only [step, encryptMessage_alike both]
  | decrypt seq combinedSs nonce nonce' ciphertext ciphertext' => rfl
  | same c => rfl

/-- No run of the wrapper carries a text: whatever is encrypted, of texts that AES-GCM takes or
refuses alike, and whatever comes to be decrypted, the answers and the states are the same. -/
theorem wrapper_carries_nothing (s : KemRatchetState L) {calls calls' : List (Call L)}
    (alike : List.Forall₂ (Alike P) calls calls') :
    Mealy.outputs (step P) s calls = Mealy.outputs (step P) s calls' ∧
      Mealy.final (step P) s calls = Mealy.final (step P) s calls' :=
  Mealy.run_eq_of_alike step_alike alike s

end

/-- A conversation of two messages, in which the first one reads otherwise. -/
def asked (text : String) : List (Call checksumLibrary) :=
  [.encryptMessage (asBytes text) (List.replicate 32 3) Ratchet.checksumNonce (4 : UInt8),
    .decryptMessage 0 (List.replicate 32 3) (List.replicate 12 0) (asBytes text)]

theorem wrapper_carries_nothing_asked :
    Mealy.outputs (step Ratchet.checksumPrimitives)
        (fromPqxdh KemPingPong.smallOpening) (asked "yes") =
      Mealy.outputs (step Ratchet.checksumPrimitives)
        (fromPqxdh KemPingPong.smallOpening) (asked "no") ∧
    Mealy.final (step Ratchet.checksumPrimitives)
        (fromPqxdh KemPingPong.smallOpening) (asked "yes") =
      Mealy.final (step Ratchet.checksumPrimitives)
        (fromPqxdh KemPingPong.smallOpening) (asked "no") := by
  apply wrapper_carries_nothing
  refine .cons (.encrypt _ _ _ fun key nonce => rfl) (.cons ?_ .nil)
  exact .decrypt 0 _ _ _ _ _

end PqDoubleRatchet
