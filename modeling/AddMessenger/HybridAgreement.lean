import AddMessenger.HybridKem

/-!
# Encapsulation and decapsulation of the hybrid secret

`hybrid_encapsulate`, `hybrid_decapsulate` and `ratchet_step` of
`crypto-pq/src/hybrid_kem.rs`, with the ways a key pair is built. Each side hashes two secrets
and two public values, and the sides agree where these texts do or where they collide.
-/

namespace HybridKem

open ByteStrings Outcomes
open Signatures (PqError)

variable (L : PqLibrary)

/-- `stdRng` is the secret that the seeded generator draws. -/
def HybridKeypair.fromSeed (stdRng : Sized UInt8 32 → Sized UInt8 32) (seed : Sized UInt8 64) :
    HybridKeypair L :=
  let x25519Secret := L.x25519Public (stdRng (seedHead seed))
  let mlkemDec := L.fromSeed seed
  ⟨x25519Secret, L.x25519Public x25519Secret, mlkemDec, L.encapsulationKey mlkemDec⟩

def HybridKeypair.fromCombinedPrivateKey (bytes : Sized UInt8 96) :
    Outcome PqError (HybridKeypair L) := do
  let x25519Secret ← slice bytes.val 0 32
  let x25519Secret ← okOr (.invalidKeyLength 32 96) (tryInto 32 x25519Secret)
  let decBytes ← slice bytes.val 32 96
  let decBytes ← okOr (.invalidKeyLength 64 64) (tryInto 64 decBytes)
  let mlkemDec := L.fromSeed decBytes
  return ⟨x25519Secret, L.x25519Public x25519Secret, mlkemDec, L.encapsulationKey mlkemDec⟩

variable {L}

/-- Both public keys are those of the secret keys beside them. -/
structure HybridKeypair.IsPair (kp : HybridKeypair L) : Prop where
  x25519 : kp.x25519Public = L.x25519Public kp.x25519Secret
  mlkem : kp.mlkemEnc = L.encapsulationKey kp.mlkemDec

variable (L)

/-- What X25519 and ML-KEM-768 document: a key agreement commutes, and decapsulation undoes
encapsulation. -/
structure KemLaws : Prop where
  diffieHellman_comm : ∀ a b,
    L.diffieHellman a (L.x25519Public b) = L.diffieHellman b (L.x25519Public a)
  generateKeypair_snd : ∀ coins,
    (L.generateKeypair coins).2 = L.encapsulationKey (L.generateKeypair coins).1
  decapsulateSlice_encapsulate : ∀ dec coins,
    L.decapsulateSlice dec (L.encapsulate (L.encapsulationKey dec) coins).1.val =
      some (L.encapsulate (L.encapsulationKey dec) coins).2

variable {L}

/-- No Diffie-Hellman is made: the ephemeral public key itself stands for the X25519 secret. -/
def hybridEncapsulate (recipientPk : L.EncapsulationKey) (initiatorX25519Pk : Sized UInt8 32)
    (e : EncapsDraws L) : HybridCiphertext × Sized UInt8 32 :=
  let x25519Ct := L.x25519Public e.ephemeral
  let (mlkemCt, mlkemSs) := L.encapsulate recipientPk e.coins
  let x25519Ss := x25519Ct
  (⟨x25519Ct, mlkemCt.val⟩,
    combineSharedSecrets L x25519Ss mlkemSs.val x25519Ct initiatorX25519Pk)

def hybridDecapsulate (ct : HybridCiphertext) (ourKeypair : HybridKeypair L)
    (senderX25519Pk : Sized UInt8 32) : Outcome PqError (Sized UInt8 32) := do
  errorIf (ct.mlkemCt.length ≠ mlkem768CtSize)
    (.invalidKeyLength mlkem768CtSize ct.mlkemCt.length)
  let mlkemSs ← okOr (.decapsulationFailed "invalid ciphertext length")
    (L.decapsulateSlice ourKeypair.mlkemDec ct.mlkemCt)
  let x25519Ss := L.diffieHellman ourKeypair.x25519Secret ct.x25519Ct
  return combineSharedSecrets L x25519Ss mlkemSs.val ct.x25519Ct senderX25519Pk

def ratchetStep (ourKeypair : HybridKeypair L) (theirCombinedPk : L.EncapsulationKey)
    (theirX25519Pk : Sized UInt8 32) (e : EncapsDraws L) : HybridCiphertext × Sized UInt8 32 :=
  let x25519Ct := L.x25519Public e.ephemeral
  let (mlkemCt, mlkemSs) := L.encapsulate theirCombinedPk e.coins
  let ss := L.diffieHellman e.ephemeral theirX25519Pk
  (⟨x25519Ct, mlkemCt.val⟩,
    combineSharedSecrets L ss mlkemSs.val x25519Ct ourKeypair.x25519Public)

/-- The recipient reads the secret that the initiator encapsulated. -/
def RecoversEncapsulated (kp : HybridKeypair L) (pk : Sized UInt8 32) (e : EncapsDraws L) :
    Prop :=
  hybridDecapsulate (hybridEncapsulate kp.mlkemEnc pk e).1 kp pk =
    .ok (hybridEncapsulate kp.mlkemEnc pk e).2

/-- The recipient reads the secret of a ratchet step towards its keys. -/
def RecoversRatchet (kp our : HybridKeypair L) (e : EncapsDraws L) : Prop :=
  hybridDecapsulate (ratchetStep our kp.mlkemEnc kp.x25519Public e).1 kp our.x25519Public =
    .ok (ratchetStep our kp.mlkemEnc kp.x25519Public e).2

variable (L)

/-- Whatever was drawn, every key pair recovers what was encapsulated to it. -/
def HybridKemCorrect : Prop :=
  ∀ kp : HybridKeypair L, kp.IsPair → ∀ pk our e,
    RecoversEncapsulated kp pk e ∧ RecoversRatchet kp our e

variable {L}

theorem generate_isPair (laws : KemLaws L) (ephemeral : Sized UInt8 32) (coins : L.Coins) :
    (HybridKeypair.generate L ephemeral coins).IsPair :=
  ⟨rfl, laws.generateKeypair_snd coins⟩

/-- The X25519 secret of the side that decapsulates. -/
def agreedSecret (kp : HybridKeypair L) (e : EncapsDraws L) : Sized UInt8 32 :=
  L.diffieHellman kp.x25519Secret (L.x25519Public e.ephemeral)

/-- The decapsulation key reads what was encapsulated to the key beside it. -/
def ReadsMlkem (kp : HybridKeypair L) (e : EncapsDraws L) : Prop :=
  decapsulated L kp.mlkemDec (L.encapsulate kp.mlkemEnc e.coins).1 =
    (L.encapsulate kp.mlkemEnc e.coins).2

def combinedText (ssX25519 ssMlkem ctX25519 pkX25519 : Sized UInt8 32) : Bytes :=
  domainTag ++ ssX25519.val ++ ssMlkem.val ++ ctX25519.val ++ pkX25519.val

def encapsulatedText (kp : HybridKeypair L) (pk : Sized UInt8 32) (e : EncapsDraws L) : Bytes :=
  combinedText (L.x25519Public e.ephemeral) (L.encapsulate kp.mlkemEnc e.coins).2
    (L.x25519Public e.ephemeral) pk

def ratchetText (kp our : HybridKeypair L) (e : EncapsDraws L) : Bytes :=
  combinedText (L.diffieHellman e.ephemeral kp.x25519Public)
    (L.encapsulate kp.mlkemEnc e.coins).2 (L.x25519Public e.ephemeral) our.x25519Public

def decapsulatedText (kp : HybridKeypair L) (pk : Sized UInt8 32) (e : EncapsDraws L) : Bytes :=
  combinedText (agreedSecret kp e)
    (decapsulated L kp.mlkemDec (L.encapsulate kp.mlkemEnc e.coins).1)
    (L.x25519Public e.ephemeral) pk

variable (L)

/-- Different texts with one digest. -/
def Collide (a b : Bytes) : Prop := a ≠ b ∧ L.sha3 a = L.sha3 b

theorem sha3_eq_iff (a b : Bytes) : L.sha3 a = L.sha3 b ↔ a = b ∨ Collide L a b := by
  by_cases same : a = b
  · simp [same]
  · simp [same, Collide]

/-- Of texts with the same public values, the two secrets decide. -/
theorem combinedText_inj {ssX ssX' ssM ssM' ct pk : Sized UInt8 32} :
    combinedText ssX ssM ct pk = combinedText ssX' ssM' ct pk ↔ ssX = ssX' ∧ ssM = ssM' := by
  constructor
  · intro same
    simp only [combinedText, List.append_assoc, List.append_cancel_left_eq] at same
    obtain ⟨x, rest⟩ := List.append_inj same (ssX.property.trans ssX'.property.symm)
    obtain ⟨m, -⟩ := List.append_inj rest (ssM.property.trans ssM'.property.symm)
    exact ⟨Subtype.ext x, Subtype.ext m⟩
  · rintro ⟨rfl, rfl⟩
    rfl

variable {L}

theorem hybridDecapsulate_mk (kp : HybridKeypair L) (x25519Ct pk : Sized UInt8 32)
    (mlkemCt : Sized UInt8 mlkem768CtSize) :
    hybridDecapsulate ⟨x25519Ct, mlkemCt.val⟩ kp pk =
      .ok (L.sha3 (combinedText (L.diffieHellman kp.x25519Secret x25519Ct)
        (decapsulated L kp.mlkemDec mlkemCt) x25519Ct pk)) := by
  have found : L.decapsulateSlice kp.mlkemDec mlkemCt.val =
      some (decapsulated L kp.mlkemDec mlkemCt) := (Option.some_get _).symm
  rw [hybridDecapsulate, errorIf_of_not (not_not.mpr mlkemCt.property), Outcome.ok_bind, found,
    okOr_some, Outcome.ok_bind]
  rfl

/-- The side that encapsulates hashed `ssX` for the X25519 secret. -/
theorem hybridDecapsulate_iff (kp : HybridKeypair L) (ssX pk : Sized UInt8 32)
    (e : EncapsDraws L) :
    hybridDecapsulate ⟨L.x25519Public e.ephemeral, (L.encapsulate kp.mlkemEnc e.coins).1.val⟩
        kp pk =
      .ok (combineSharedSecrets L ssX (L.encapsulate kp.mlkemEnc e.coins).2.val
        (L.x25519Public e.ephemeral) pk) ↔
    (agreedSecret kp e = ssX ∧ ReadsMlkem kp e) ∨
      Collide L (decapsulatedText kp pk e)
        (combinedText ssX (L.encapsulate kp.mlkemEnc e.coins).2 (L.x25519Public e.ephemeral)
          pk) := by
  rw [hybridDecapsulate_mk, Outcome.ok.injEq, agreedSecret, ReadsMlkem, ← combinedText_inj]
  exact sha3_eq_iff L _ _

/-- The recipient of a matched pair decapsulates what ML-KEM encapsulated. -/
theorem readsMlkem_of_isPair (laws : KemLaws L) {kp : HybridKeypair L} (pair : kp.IsPair)
    (e : EncapsDraws L) : ReadsMlkem kp e := by
  have undone := laws.decapsulateSlice_encapsulate kp.mlkemDec e.coins
  rw [← pair.mlkem] at undone
  rw [ReadsMlkem, decapsulated, Option.get_of_eq_some _ undone]

theorem agreedSecret_of_isPair (laws : KemLaws L) {kp : HybridKeypair L} (pair : kp.IsPair)
    (e : EncapsDraws L) : agreedSecret kp e = L.diffieHellman e.ephemeral kp.x25519Public := by
  rw [agreedSecret, pair.x25519, laws.diffieHellman_comm]

/-- What a ratchet step towards a matched pair gives is always recovered. What
`hybrid_encapsulate` gives is recovered where the key agreement with the ephemeral public key
gives that key back, or where two texts collide. -/
theorem hybridKem_correct_iff (laws : KemLaws L) (kp our : HybridKeypair L)
    (pk : Sized UInt8 32) (e : EncapsDraws L) :
    (RecoversEncapsulated kp pk e ↔
      (agreedSecret kp e = L.x25519Public e.ephemeral ∧ ReadsMlkem kp e) ∨
        Collide L (decapsulatedText kp pk e) (encapsulatedText kp pk e)) ∧
    (RecoversRatchet kp our e ↔
      (agreedSecret kp e = L.diffieHellman e.ephemeral kp.x25519Public ∧ ReadsMlkem kp e) ∨
        Collide L (decapsulatedText kp our.x25519Public e) (ratchetText kp our e)) ∧
    (kp.IsPair → RecoversRatchet kp our e ∧
      (RecoversEncapsulated kp pk e ∧ RecoversRatchet kp our e ↔
        agreedSecret kp e = L.x25519Public e.ephemeral ∨
          Collide L (decapsulatedText kp pk e) (encapsulatedText kp pk e))) := by
  have encapsulated := hybridDecapsulate_iff kp (L.x25519Public e.ephemeral) pk e
  have stepped := hybridDecapsulate_iff kp (L.diffieHellman e.ephemeral kp.x25519Public)
    our.x25519Public e
  refine ⟨encapsulated, stepped, fun pair => ?_⟩
  have reads := readsMlkem_of_isPair laws pair e
  have always : RecoversRatchet kp our e :=
    stepped.mpr (.inl ⟨agreedSecret_of_isPair laws pair e, reads⟩)
  refine ⟨always, (and_iff_left always).trans (encapsulated.trans ?_)⟩
  rw [and_iff_left reads]
  rfl

/-- In the small library the recipient adds its own secret. -/
theorem checksumLibrary_laws : KemLaws checksumLibrary where
  diffieHellman_comm a b := by
    have same : (a.val ++ b.val).sum = (b.val ++ a.val).sum := by
      rw [List.sum_append, List.sum_append, add_comm]
    show sumBytes 32 (a.val ++ b.val) = sumBytes 32 (b.val ++ a.val)
    exact Subtype.ext (congrArg (List.replicate 32) same)
  generateKeypair_snd coins := rfl
  decapsulateSlice_encapsulate dec coins := by
    have head : (padTo mlkem768PkSize dec.val).val.take 1 = dec.val.take 1 := by
      obtain ⟨bytes, sized⟩ := dec
      cases bytes with
      | nil => cases sized
      | cons b rest => rfl
    show some (sumBytes 32 ((coins : UInt8) :: dec.val.take 1)) =
      some (sumBytes 32 ((coins : UInt8) :: (padTo mlkem768PkSize dec.val).val.take 1))
    rw [head]

def checksumPair : HybridKeypair checksumLibrary :=
  HybridKeypair.generate checksumLibrary checksumDraws.ephemeral checksumDraws.coins

theorem checksumPair_isPair : checksumPair.IsPair :=
  generate_isPair checksumLibrary_laws _ _

theorem not_recoversEncapsulated_checksum :
    ¬ RecoversEncapsulated checksumPair (sumBytes 32 [9]) checksumEncaps ∧
      ¬ HybridKemCorrect checksumLibrary := by
  have differ :
      ¬ RecoversEncapsulated checksumPair (sumBytes 32 [9]) checksumEncaps := by
    unfold RecoversEncapsulated
    decide +kernel
  exact ⟨differ, fun correct =>
    differ (correct checksumPair checksumPair_isPair _ checksumPair checksumEncaps).1⟩

theorem hybridKem_correct_iff_checksum :
    KemLaws checksumLibrary ∧ RecoversRatchet checksumPair checksumPair checksumEncaps :=
  ⟨checksumLibrary_laws,
    ((hybridKem_correct_iff checksumLibrary_laws checksumPair checksumPair (sumBytes 32 [9])
      checksumEncaps).2.2 checksumPair_isPair).1⟩

end HybridKem
