import AddMessenger.HybridAgreement

/-!
# Key pairs as bytes

`serialize_keypair` and `deserialize_keypair` of `crypto-pq/src/kem.rs`, and
`combined_private_key` of `crypto-pq/src/hybrid_kem.rs`: what of a key pair comes back from
either form.
-/

namespace HybridKem

open ByteStrings Outcomes
open Signatures (PqError)

/-- The conversions of the trait `KemRatchet` for its keys. -/
structure KeyConversions (PublicKey DecapKey : Type) where
  pkToBytes : PublicKey → Bytes
  pkFromBytes : Bytes → Outcome PqError PublicKey
  skToBytes : DecapKey → Bytes
  skFromBytes : Bytes → Outcome PqError DecapKey

def hybridKemRatchet (L : PqLibrary) : KeyConversions (HybridKeypair L) (Sized UInt8 64) where
  pkToBytes := pkToBytes
  pkFromBytes := pkFromBytes L
  skToBytes sk := sk.val
  skFromBytes := skFromBytes

variable {PublicKey DecapKey : Type} (kem : KeyConversions PublicKey DecapKey)

/-- Each key behind its length, of which the low 16 bits are written. -/
def serializeKeypair (pk : PublicKey) (sk : DecapKey) : Bytes :=
  let pkBytes := kem.pkToBytes pk
  let skBytes := kem.skToBytes sk
  toBeBytes16 pkBytes.length ++ pkBytes ++ toBeBytes16 skBytes.length ++ skBytes

def readLength (wire : Bytes) (i : Nat) : Outcome PqError Nat := do
  let hi ← index wire i
  let lo ← index wire (i + 1)
  return fromBeBytes16 hi lo

def deserializeKeypair (wire : Bytes) : Outcome PqError (PublicKey × DecapKey) := do
  errorIf (wire.length < 4) (.invalidKeyLength 4 wire.length)
  let pkLen ← readLength wire 0
  let skStart := 2 + pkLen + 2
  errorIf (skStart > wire.length) (.invalidKeyLength 4 wire.length)
  let skLen ← readLength wire (skStart - 2)
  let skEnd := skStart + skLen
  errorIf (skEnd > wire.length) (.invalidKeyLength skEnd wire.length)
  let pkBytes ← slice wire 2 (skStart - 2)
  let skBytes ← slice wire skStart skEnd
  let pk ← kem.pkFromBytes pkBytes
  let sk ← kem.skFromBytes skBytes
  return (pk, sk)

/-- The 32 bytes of the X25519 secret and the first 64 of the decapsulation key. -/
def HybridKeypair.combinedPrivateKey {L : PqLibrary} (kp : HybridKeypair L) : Sized UInt8 96 :=
  ⟨kp.x25519Secret.val ++ (L.decBytes kp.mlkemDec).val.take 64, by
    rw [List.length_append, List.length_take, kp.x25519Secret.property,
      (L.decBytes kp.mlkemDec).property]
    rfl⟩

variable {kem}

theorem fromBeBytes16_toBeBytes16 {n : Nat} (fits : n < 2 ^ 16) :
    fromBeBytes16 (UInt8.ofNat (n / 256)) (UInt8.ofNat n) = n := by
  simp [fromBeBytes16]
  omega

theorem readLength_append {front back : Bytes} {n i : Nat} (fits : n < 2 ^ 16)
    (start : i = front.length) : readLength (front ++ (toBeBytes16 n ++ back)) i = .ok n := by
  subst start
  have hi : (front ++ (toBeBytes16 n ++ back))[front.length]? = some (UInt8.ofNat (n / 256)) := by
    rw [List.getElem?_append_right (Nat.le_refl _), Nat.sub_self]
    rfl
  have lo : (front ++ (toBeBytes16 n ++ back))[front.length + 1]? = some (UInt8.ofNat n) := by
    rw [List.getElem?_append_right (Nat.le_add_right _ _), Nat.add_sub_cancel_left]
    rfl
  rw [readLength, index_eq_ok.mpr hi, Outcome.ok_bind, index_eq_ok.mpr lo, Outcome.ok_bind,
    fromBeBytes16_toBeBytes16 fits]
  rfl

/-- Both keys are read from their own bytes, if the lengths fit their fields. -/
theorem deserializeKeypair_serializeKeypair {pk : PublicKey} {sk : DecapKey}
    (pkFits : (kem.pkToBytes pk).length < 2 ^ 16) (skFits : (kem.skToBytes sk).length < 2 ^ 16) :
    deserializeKeypair kem (serializeKeypair kem pk sk) = (do
      let pk ← kem.pkFromBytes (kem.pkToBytes pk)
      let sk ← kem.skFromBytes (kem.skToBytes sk)
      return (pk, sk)) := by
  unfold serializeKeypair deserializeKeypair
  generalize kem.pkToBytes pk = pkBytes at pkFits ⊢
  generalize kem.skToBytes sk = skBytes at skFits ⊢
  generalize wireEq : toBeBytes16 pkBytes.length ++ pkBytes ++ toBeBytes16 skBytes.length ++
    skBytes = wire
  have two : ∀ n, (toBeBytes16 n).length = 2 := fun _ => rfl
  have whole : wire.length = 2 + pkBytes.length + 2 + skBytes.length := by
    rw [← wireEq]
    simp only [List.length_append, two]
  have pkLen : readLength wire 0 = .ok pkBytes.length := by
    rw [← wireEq, List.append_assoc, List.append_assoc]
    exact @readLength_append [] _ _ _ pkFits rfl
  have skLen : readLength wire (2 + pkBytes.length + 2 - 2) = .ok skBytes.length := by
    rw [← wireEq, List.append_assoc (toBeBytes16 pkBytes.length ++ pkBytes)]
    refine readLength_append skFits ?_
    rw [List.length_append, two, Nat.add_sub_cancel]
  have pkSlice : slice wire 2 (2 + pkBytes.length + 2 - 2) =
      (.ok pkBytes : Outcome PqError Bytes) := by
    have split : wire = toBeBytes16 pkBytes.length ++
        (pkBytes ++ (toBeBytes16 skBytes.length ++ skBytes)) := by
      rw [← wireEq]
      simp only [List.append_assoc]
    exact slice_of_append split rfl (Nat.add_sub_cancel ..)
  have skSlice : slice wire (2 + pkBytes.length + 2)
      (2 + pkBytes.length + 2 + skBytes.length) = (.ok skBytes : Outcome PqError Bytes) := by
    have split : wire = toBeBytes16 pkBytes.length ++ pkBytes ++ toBeBytes16 skBytes.length ++
        (skBytes ++ []) := by
      rw [← wireEq, List.append_nil]
    refine slice_of_append split ?_ rfl
    simp only [List.length_append, two]
  have long : ¬ wire.length < 4 := by omega
  have pkInside : ¬ 2 + pkBytes.length + 2 > wire.length := by omega
  have skInside : ¬ 2 + pkBytes.length + 2 + skBytes.length > wire.length := by omega
  simp only [errorIf_of_not long, pkLen, errorIf_of_not pkInside, skLen, errorIf_of_not skInside,
    pkSlice, skSlice, Outcome.ok_bind]

theorem readLength_ne_panicked {wire : Bytes} {i : Nat} (inside : i + 2 ≤ wire.length) :
    readLength wire i ≠ .panicked :=
  Outcome.bind_ne_panicked (index_ne_panicked (by omega)) fun _ _ =>
    Outcome.bind_ne_panicked (index_ne_panicked (by omega)) fun _ _ => by simp

/-- No byte string makes the reader leave it. -/
theorem deserializeKeypair_ne_panicked (pkSafe : ∀ bytes, kem.pkFromBytes bytes ≠ .panicked)
    (skSafe : ∀ bytes, kem.skFromBytes bytes ≠ .panicked) (wire : Bytes) :
    deserializeKeypair kem wire ≠ .panicked := by
  unfold deserializeKeypair
  refine Outcome.bind_ne_panicked errorIf_ne_panicked fun _ long => ?_
  rw [errorIf_eq_ok, Nat.not_lt] at long
  refine Outcome.bind_ne_panicked (readLength_ne_panicked (by omega)) fun pkLen _ => ?_
  refine Outcome.bind_ne_panicked errorIf_ne_panicked fun _ pkInside => ?_
  rw [errorIf_eq_ok, Nat.not_lt] at pkInside
  refine Outcome.bind_ne_panicked (readLength_ne_panicked (by omega)) fun skLen _ => ?_
  refine Outcome.bind_ne_panicked errorIf_ne_panicked fun _ skInside => ?_
  rw [errorIf_eq_ok, Nat.not_lt] at skInside
  refine Outcome.bind_ne_panicked (slice_ne_panicked (by omega) (by omega)) fun pkBytes _ => ?_
  refine Outcome.bind_ne_panicked (slice_ne_panicked (by omega) (by omega)) fun skBytes _ => ?_
  refine Outcome.bind_ne_panicked (pkSafe _) fun pk _ => ?_
  exact Outcome.bind_ne_panicked (skSafe _) fun sk _ => by simp

variable {L : PqLibrary}

theorem fromCombinedPublicKey_ne_panicked (bytes : Bytes) :
    HybridKeypair.fromCombinedPublicKey L bytes ≠ .panicked := by
  unfold HybridKeypair.fromCombinedPublicKey
  refine Outcome.bind_ne_panicked errorIf_ne_panicked fun _ sized => ?_
  rw [errorIf_eq_ok, not_not] at sized
  have inside : x25519PkSize ≤ bytes.length := by
    rw [sized]
    decide
  refine Outcome.bind_ne_panicked (slice_ne_panicked (Nat.zero_le _) inside) fun _ _ => ?_
  refine Outcome.bind_ne_panicked okOr_ne_panicked fun _ _ => ?_
  exact Outcome.bind_ne_panicked (slice_ne_panicked inside (Nat.le_refl _)) fun _ _ =>
    okOr_ne_panicked

theorem pkFromBytes_ne_panicked (bytes : Bytes) : pkFromBytes L bytes ≠ .panicked := by
  by_cases sized : bytes.length = combinedPkSize
  · have inside : 32 ≤ bytes.length := by
      rw [sized]
      decide
    unfold pkFromBytes
    refine Outcome.bind_ne_panicked (fromCombinedPublicKey_ne_panicked bytes) fun _ _ => ?_
    refine Outcome.bind_ne_panicked (slice_ne_panicked (Nat.zero_le _) inside) fun _ _ => ?_
    exact Outcome.bind_ne_panicked okOr_ne_panicked fun _ _ => by simp
  · rw [pkFromBytes_of_length_ne sized]
    simp

/-- What is read back from the bytes of a pair: the secret key, and a public key with another
ML-KEM part. -/
theorem deserializeKeypair_hybrid (pk : HybridKeypair L) (sk : Sized UInt8 64) :
    deserializeKeypair (hybridKemRatchet L) (serializeKeypair (hybridKemRatchet L) pk sk) =
      .ok (⟨pk.x25519Public, pk.x25519Public, seedToDecapKey L (L.encBytes pk.mlkemEnc),
        L.encapsulationKey (seedToDecapKey L (L.encBytes pk.mlkemEnc))⟩, sk) := by
  have pkSize : (pkToBytes pk).length = combinedPkSize := by
    rw [pkToBytes, HybridKeypair.combinedPublicKey, List.length_append, pk.x25519Public.property,
      (L.encBytes pk.mlkemEnc).property]
    rfl
  rw [deserializeKeypair_serializeKeypair (lt_of_eq_of_lt pkSize (by decide))
    (lt_of_eq_of_lt sk.property (by decide))]
  change (pkFromBytes L (pkToBytes pk) >>= fun pk => skFromBytes sk.val >>= fun sk =>
    pure (pk, sk)) = _
  rw [pkFromBytes_pkToBytes, Outcome.ok_bind, skFromBytes, tryInto_val]
  rfl

variable (L)

/-- What ML-KEM-768 documents of the keys that it generates: they come from a seed, and the
encapsulation key is that of the decapsulation key. -/
structure KeyLaws : Prop where
  generated_fromSeed : ∀ coins, ∃ seed, (L.generateKeypair coins).1 = L.fromSeed seed
  generateKeypair_snd : ∀ coins,
    (L.generateKeypair coins).2 = L.encapsulationKey (L.generateKeypair coins).1

/-- A pair that was serialized is read back. -/
def KeypairRoundTrip (d : KeyDraws L) : Prop :=
  let (pk, sk) := generateKeypair L d
  ∃ pk', deserializeKeypair (hybridKemRatchet L)
      (serializeKeypair (hybridKemRatchet L) pk sk) = .ok (pk', sk) ∧
    pk'.combinedPublicKey = pk.combinedPublicKey ∧ pk'.mlkemEnc = pk.mlkemEnc

/-- Both public keys are found again from the private ones. -/
def PrivateKeyRestores (d : KeyDraws L) : Prop :=
  let kp := (generateKeypair L d).1
  ∃ kp', HybridKeypair.fromCombinedPrivateKey L kp.combinedPrivateKey = .ok kp' ∧
    kp'.x25519Public = kp.x25519Public ∧ kp'.mlkemEnc = kp.mlkemEnc

/-- The encapsulation key is the one that belongs to the hash of its own bytes. -/
def HashOfItself (key : L.EncapsulationKey) : Prop :=
  L.encapsulationKey (seedToDecapKey L (L.encBytes key)) = key

variable {L}

theorem keypairRoundTrip_iff (d : KeyDraws L) :
    KeypairRoundTrip L d ↔ HashOfItself L (generateKeypair L d).1.mlkemEnc := by
  unfold KeypairRoundTrip
  dsimp only
  rw [deserializeKeypair_hybrid]
  constructor
  · rintro ⟨pk', same, -, enc⟩
    cases same
    exact enc
  · intro fixed
    refine ⟨_, rfl, ?_, fixed⟩
    rw [HybridKeypair.combinedPublicKey, HybridKeypair.combinedPublicKey]
    exact congrArg (fun key => _ ++ (L.encBytes key).val) fixed

theorem privateKeyRestores (laws : KeyLaws L) (d : KeyDraws L) : PrivateKeyRestores L d := by
  unfold PrivateKeyRestores
  dsimp only
  generalize made : (generateKeypair L d).1 = kp
  have x25519 : L.x25519Public kp.x25519Secret = kp.x25519Public := by
    rw [← made]
    rfl
  obtain ⟨seed, fromSeed⟩ := laws.generated_fromSeed d.coins
  have dec : kp.mlkemDec = L.fromSeed seed := by
    rw [← made, ← fromSeed]
    rfl
  have enc : kp.mlkemEnc = L.encapsulationKey (L.fromSeed seed) := by
    rw [← fromSeed, ← laws.generateKeypair_snd, ← made]
    rfl
  have sized := kp.x25519Secret.property
  have private_ : kp.combinedPrivateKey.val = kp.x25519Secret.val ++ seed.val := by
    change kp.x25519Secret.val ++ (L.decBytes kp.mlkemDec).val.take 64 = _
    rw [dec, L.decBytes_fromSeed, List.take_of_length_le (Nat.le_of_eq seed.property)]
  have first : slice kp.combinedPrivateKey.val 0 32 =
      (.ok kp.x25519Secret.val : Outcome PqError Bytes) := by
    rw [private_, slice_left sized.symm]
  have second : slice kp.combinedPrivateKey.val 32 96 =
      (.ok seed.val : Outcome PqError Bytes) := by
    have stop : 96 = (kp.x25519Secret.val ++ seed.val).length := by
      rw [List.length_append, sized, seed.property]
    rw [private_, stop, slice_right sized.symm]
  refine ⟨⟨kp.x25519Secret, L.x25519Public kp.x25519Secret, L.fromSeed seed,
    L.encapsulationKey (L.fromSeed seed)⟩, ?_, x25519, enc.symm⟩
  simp only [HybridKeypair.fromCombinedPrivateKey, first, second, Outcome.ok_bind, tryInto_val,
    okOr_some, Outcome.pure_eq]

/-- No bytes make the reader panic, the secret key always comes back, and the private form
restores both public keys. The public form does so only for a key that is the hash of itself. -/
theorem key_serialization_iff (laws : KeyLaws L) (d : KeyDraws L) :
    (KeypairRoundTrip L d ∧
        (∀ wire, deserializeKeypair (hybridKemRatchet L) wire ≠ .panicked) ∧
        PrivateKeyRestores L d ↔
      HashOfItself L (generateKeypair L d).1.mlkemEnc) ∧
    (∀ wire, deserializeKeypair (hybridKemRatchet L) wire ≠ .panicked) ∧
    PrivateKeyRestores L d ∧
    ∃ pk', deserializeKeypair (hybridKemRatchet L) (serializeKeypair (hybridKemRatchet L)
      (generateKeypair L d).1 (generateKeypair L d).2) = .ok (pk', (generateKeypair L d).2) := by
  have skSafe : ∀ bytes, skFromBytes bytes ≠ .panicked := fun _ => okOr_ne_panicked
  have safe : ∀ wire, deserializeKeypair (hybridKemRatchet L) wire ≠ .panicked :=
    deserializeKeypair_ne_panicked pkFromBytes_ne_panicked skSafe
  have restores := privateKeyRestores laws d
  refine ⟨?_, safe, restores, _, deserializeKeypair_hybrid _ _⟩
  rw [and_iff_left ⟨safe, restores⟩]
  exact keypairRoundTrip_iff d

theorem checksumLibrary_keyLaws : KeyLaws checksumLibrary where
  generated_fromSeed coins := ⟨padTo 64 [coins], rfl⟩
  generateKeypair_snd _ := rfl

/-- The key that was generated is 1 and zeros, the digest of it is 32 bytes of 1. -/
theorem checksum_not_hashOfItself :
    ¬ HashOfItself checksumLibrary (generateKeypair checksumLibrary checksumDraws).1.mlkemEnc := by
  intro same
  have bytes := congrArg (fun key : Sized UInt8 mlkem768PkSize => key.val.take 2) same
  exact absurd bytes (by decide +kernel)

theorem checksum_loses_public_key : ¬ KeypairRoundTrip checksumLibrary checksumDraws :=
  fun round => checksum_not_hashOfItself ((keypairRoundTrip_iff checksumDraws).mp round)

theorem key_serialization_iff_checksum : PrivateKeyRestores checksumLibrary checksumDraws :=
  (key_serialization_iff checksumLibrary_keyLaws checksumDraws).2.2.1

end HybridKem
