import AddMessenger.Outcomes
import AddMessenger.Signatures

/-!
# The hybrid KEM

`crypto-pq/src/hybrid_kem.rs` and `HybridKemRatchet` of `crypto-pq/src/kem.rs`: key pairs of
X25519 and ML-KEM-768, their combined byte forms, and encapsulation with a context.

ML-KEM-768, X25519, SHA3-256 and HKDF-SHA256 are parameters. What is drawn at random is an
argument of the call that draws it. A call whose `Result` is always `Ok` is a plain function.
-/

namespace HybridKem

open ByteStrings Outcomes
open Signatures (PqError)

def x25519PkSize : Nat := 32

def x25519CtSize : Nat := 32

def mlkem768PkSize : Nat := 1184

def mlkem768CtSize : Nat := 1088

def combinedPkSize : Nat := x25519PkSize + mlkem768PkSize

def combinedCtSize : Nat := x25519CtSize + mlkem768CtSize

def kemContextTag : Bytes := asBytes "add-kem-context-v1"

def domainTag : Bytes := asBytes "add-hybrid-kem-v1"

/-- The code outside the repository, with the documented sizes. A decapsulation key is written
as its seed; a ciphertext of the right size always decapsulates (ML-KEM rejects implicitly). -/
structure PqLibrary where
  EncapsulationKey : Type
  DecapsulationKey : Type
  Coins : Type
  generateKeypair : Coins → DecapsulationKey × EncapsulationKey
  newFromSlice : Bytes → Option EncapsulationKey
  encBytes : EncapsulationKey → Sized UInt8 mlkem768PkSize
  fromSeed : Sized UInt8 64 → DecapsulationKey
  decBytes : DecapsulationKey → Sized UInt8 64
  encapsulationKey : DecapsulationKey → EncapsulationKey
  encapsulate : EncapsulationKey → Coins → Sized UInt8 mlkem768CtSize × Sized UInt8 32
  decapsulateSlice : DecapsulationKey → Bytes → Option (Sized UInt8 32)
  x25519Public : Sized UInt8 32 → Sized UInt8 32
  diffieHellman : (secret public_ : Sized UInt8 32) → Sized UInt8 32
  sha3 : Bytes → Sized UInt8 32
  okm : (salt ikm : Bytes) → (info : String) → (len : Nat) → Sized UInt8 len
  newFromSlice_encBytes : ∀ key, newFromSlice (encBytes key).val = some key
  encBytes_of_newFromSlice : ∀ bytes key, newFromSlice bytes = some key → (encBytes key).val = bytes
  newFromSlice_zero : (newFromSlice (List.replicate mlkem768PkSize 0)).isSome
  decBytes_fromSeed : ∀ seed, decBytes (fromSeed seed) = seed
  decapsulateSlice_isSome : ∀ key ct, ct.length = mlkem768CtSize →
    (decapsulateSlice key ct).isSome

variable (L : PqLibrary)

/-- HKDF-Expand refuses more than 255 blocks of 32 bytes. -/
def hkdfExpand (salt ikm : Bytes) (info : String) (len : Nat) : Option (Sized UInt8 len) :=
  if len ≤ 255 * 32 then some (L.okm salt ikm info len) else none

structure HybridKeypair where
  x25519Secret : Sized UInt8 32
  x25519Public : Sized UInt8 32
  mlkemDec : L.DecapsulationKey
  mlkemEnc : L.EncapsulationKey

/-- The X25519 secret is the public key of the ephemeral secret that was drawn. -/
def HybridKeypair.generate (ephemeral : Sized UInt8 32) (coins : L.Coins) : HybridKeypair L :=
  let x25519Secret := L.x25519Public ephemeral
  let (mlkemDec, mlkemEnc) := L.generateKeypair coins
  ⟨x25519Secret, L.x25519Public x25519Secret, mlkemDec, mlkemEnc⟩

def HybridKeypair.combinedPublicKey {L : PqLibrary} (kp : HybridKeypair L) : Bytes :=
  kp.x25519Public.val ++ (L.encBytes kp.mlkemEnc).val

def HybridKeypair.fromCombinedPublicKey (bytes : Bytes) : Outcome PqError L.EncapsulationKey := do
  errorIf (bytes.length ≠ combinedPkSize) (.invalidKeyLength combinedPkSize bytes.length)
  let x25519Pk ← slice bytes 0 x25519PkSize
  let _ ← okOr (.invalidKeyLength x25519PkSize bytes.length) (tryInto 32 x25519Pk)
  let mlkemEnc ← slice bytes x25519PkSize bytes.length
  okOr (.invalidKeyLength mlkem768PkSize (bytes.length - x25519PkSize)) (L.newFromSlice mlkemEnc)

structure HybridCiphertext where
  x25519Ct : Sized UInt8 32
  mlkemCt : Bytes
  deriving DecidableEq

/-- The second copy panics unless the ML-KEM part has its size. -/
def HybridCiphertext.toBytes {ε : Type} (ct : HybridCiphertext) : Outcome ε Bytes := do
  let mlkemCt ← copyFromSlice mlkem768CtSize ct.mlkemCt
  return ct.x25519Ct.val ++ mlkemCt.val

def HybridCiphertext.fromBytes (bytes : Bytes) : Outcome PqError HybridCiphertext := do
  errorIf (bytes.length ≠ combinedCtSize) (.invalidKeyLength combinedCtSize bytes.length)
  let x25519Ct ← slice bytes 0 x25519CtSize
  let x25519Ct ← copyFromSlice 32 x25519Ct
  let mlkemCt ← slice bytes x25519CtSize bytes.length
  return ⟨x25519Ct, mlkemCt⟩

def combineSharedSecrets (ssX25519 : Sized UInt8 32) (ssMlkem : Bytes)
    (ctX25519 pkX25519 : Sized UInt8 32) : Sized UInt8 32 :=
  L.sha3 (domainTag ++ ssX25519.val ++ ssMlkem ++ ctX25519.val ++ pkX25519.val)

/-- The 64 bytes of a seed: a digest and zeros. -/
def paddedSeed (digest : Sized UInt8 32) : Sized UInt8 64 :=
  ⟨digest.val ++ List.replicate 32 0, by
    rw [List.length_append, digest.property, List.length_replicate]⟩

def seedToDecapKey (seed : Sized UInt8 mlkem768PkSize) : L.DecapsulationKey :=
  L.fromSeed (paddedSeed (L.sha3 seed.val))

/-- What `generate_keypair` draws. -/
structure KeyDraws where
  ephemeral : Sized UInt8 32
  coins : L.Coins

/-- What `encapsulate` draws. -/
structure EncapsDraws where
  ephemeral : Sized UInt8 32
  coins : L.Coins

def generateKeypair (d : KeyDraws L) : HybridKeypair L × Sized UInt8 64 :=
  let kp := HybridKeypair.generate L d.ephemeral d.coins
  let dec := seedToDecapKey L (L.encBytes kp.mlkemEnc)
  (kp, L.decBytes dec)

variable {L}

/-- `hybrid_encapsulate_with_context` -/
def encapsulate (pk : HybridKeypair L) (context : Bytes) (e : EncapsDraws L) :
    HybridCiphertext × Sized UInt8 32 :=
  let x25519Ct := L.x25519Public e.ephemeral
  let (mlkemCt, mlkemSs) := L.encapsulate pk.mlkemEnc e.coins
  let x25519Ss := L.diffieHellman e.ephemeral pk.x25519Public
  (⟨x25519Ct, mlkemCt.val⟩, L.sha3 (kemContextTag ++ context ++ x25519Ss.val ++ mlkemSs.val ++
    x25519Ct.val ++ pk.x25519Public.val))

variable (L)

/-- The first half of a seed. -/
def seedHead (seed : Sized UInt8 64) : Sized UInt8 32 :=
  ⟨seed.val.take 32, by rw [List.length_take, seed.property]; rfl⟩

/-- `hybrid_decapsulate_with_context`: the X25519 secret is the first half of the seed, and the
ciphertext's X25519 key is hashed twice. -/
def decapsulate (sk : Sized UInt8 64) (ct : HybridCiphertext) (context : Bytes) :
    Outcome PqError (Sized UInt8 32) := do
  let dec := L.fromSeed sk
  errorIf (ct.mlkemCt.length ≠ mlkem768CtSize)
    (.invalidKeyLength mlkem768CtSize ct.mlkemCt.length)
  let mlkemSs ← okOr (.decapsulationFailed "invalid ciphertext length")
    (L.decapsulateSlice dec ct.mlkemCt)
  let x25519Ss := L.diffieHellman (seedHead (L.decBytes dec)) ct.x25519Ct
  return L.sha3 (kemContextTag ++ context ++ x25519Ss.val ++ mlkemSs.val ++ ct.x25519Ct.val ++
    ct.x25519Ct.val)

def pkToBytes {L : PqLibrary} (pk : HybridKeypair L) : Bytes := pk.combinedPublicKey

/-- The X25519 key is taken for its own secret, and the ML-KEM keys are those of the hash of
the key that was sent. -/
def pkFromBytes (bytes : Bytes) : Outcome PqError (HybridKeypair L) := do
  let enc ← HybridKeypair.fromCombinedPublicKey L bytes
  let x25519Pk ← slice bytes 0 32
  let x25519Pk ← okOr (.invalidKeyLength 32 bytes.length) (tryInto 32 x25519Pk)
  let mlkemDec := seedToDecapKey L (L.encBytes enc)
  return ⟨x25519Pk, x25519Pk, mlkemDec, L.encapsulationKey mlkemDec⟩

def skFromBytes (bytes : Bytes) : Outcome PqError (Sized UInt8 64) :=
  okOr (.invalidKeyLength 64 bytes.length) (tryInto 64 bytes)

def makeKemContext (epoch seq : UInt64) : Bytes :=
  kemContextTag ++ toBeBytes 8 epoch.toNat ++ toBeBytes 8 seq.toNat

variable {L}

theorem fromBytes_append (x25519Ct : Sized UInt8 32) {mlkemCt : Bytes}
    (sized : mlkemCt.length = mlkem768CtSize) :
    HybridCiphertext.fromBytes (x25519Ct.val ++ mlkemCt) = .ok ⟨x25519Ct, mlkemCt⟩ := by
  have whole : (x25519Ct.val ++ mlkemCt).length = combinedCtSize := by
    rw [List.length_append, x25519Ct.property, sized]
    rfl
  have start : x25519CtSize = x25519Ct.val.length := x25519Ct.property.symm
  rw [HybridCiphertext.fromBytes, errorIf_of_not (not_not.mpr whole)]
  simp only [Outcome.ok_bind, slice_left start, slice_right start, copyFromSlice_val,
    Outcome.pure_eq]

/-- As many bytes as a ciphertext has are always read. -/
theorem exists_fromBytes {bytes : Bytes} (sized : bytes.length = combinedCtSize) :
    ∃ ct, HybridCiphertext.fromBytes bytes = .ok ct := by
  have front : (bytes.take 32).length = 32 := by
    rw [List.length_take, sized]
    rfl
  have back : (bytes.drop 32).length = mlkem768CtSize := by
    rw [List.length_drop, sized]
    rfl
  refine ⟨⟨⟨bytes.take 32, front⟩, bytes.drop 32⟩, ?_⟩
  rw [← fromBytes_append ⟨bytes.take 32, front⟩ back, List.take_append_drop]

theorem fromBytes_ne_panicked (bytes : Bytes) :
    HybridCiphertext.fromBytes bytes ≠ .panicked := by
  by_cases sized : bytes.length = combinedCtSize
  · obtain ⟨ct, read⟩ := exists_fromBytes sized
    simp [read]
  · rw [HybridCiphertext.fromBytes, errorIf, if_pos sized]
    simp

theorem toBytes_of_length {ε : Type} {ct : HybridCiphertext}
    (sized : ct.mlkemCt.length = mlkem768CtSize) :
    (ct.toBytes : Outcome ε Bytes) = .ok (ct.x25519Ct.val ++ ct.mlkemCt) := by
  rw [HybridCiphertext.toBytes, copyFromSlice_of_length sized]
  rfl

theorem fromCombinedPublicKey_append (x25519Pk : Sized UInt8 32) (key : L.EncapsulationKey) :
    HybridKeypair.fromCombinedPublicKey L (x25519Pk.val ++ (L.encBytes key).val) = .ok key := by
  have whole : (x25519Pk.val ++ (L.encBytes key).val).length = combinedPkSize := by
    rw [List.length_append, x25519Pk.property, (L.encBytes key).property]
    rfl
  have start : x25519PkSize = x25519Pk.val.length := x25519Pk.property.symm
  rw [HybridKeypair.fromCombinedPublicKey, errorIf_of_not (not_not.mpr whole)]
  simp only [Outcome.ok_bind, slice_left start, slice_right start, tryInto_val, okOr_some,
    L.newFromSlice_encBytes]

/-- A sent public key comes back with another ML-KEM key. -/
theorem pkFromBytes_pkToBytes (pk : HybridKeypair L) :
    pkFromBytes L (pkToBytes pk) =
      .ok ⟨pk.x25519Public, pk.x25519Public, seedToDecapKey L (L.encBytes pk.mlkemEnc),
        L.encapsulationKey (seedToDecapKey L (L.encBytes pk.mlkemEnc))⟩ := by
  have stop : 32 = pk.x25519Public.val.length := pk.x25519Public.property.symm
  rw [pkFromBytes, pkToBytes, HybridKeypair.combinedPublicKey, fromCombinedPublicKey_append]
  simp only [Outcome.ok_bind, slice_left stop, tryInto_val, okOr_some, Outcome.pure_eq]

/-- A key of any other length than a combined one is an error. -/
theorem pkFromBytes_of_length_ne {bytes : Bytes} (other : bytes.length ≠ combinedPkSize) :
    pkFromBytes L bytes = .error (.invalidKeyLength combinedPkSize bytes.length) := by
  rw [pkFromBytes, HybridKeypair.fromCombinedPublicKey, errorIf, if_pos other]
  rfl

/-- The secret of a ciphertext of the right size. -/
def decapsulated (L : PqLibrary) (dec : L.DecapsulationKey) (ct : Sized UInt8 mlkem768CtSize) :
    Sized UInt8 32 :=
  (L.decapsulateSlice dec ct.val).get (L.decapsulateSlice_isSome dec ct.val ct.property)

/-- What `encapsulate` hashes. -/
def sentText (pk : HybridKeypair L) (context : Bytes) (e : EncapsDraws L) : Bytes :=
  kemContextTag ++ context ++ (L.diffieHellman e.ephemeral pk.x25519Public).val ++
    (L.encapsulate pk.mlkemEnc e.coins).2.val ++ (L.x25519Public e.ephemeral).val ++
    pk.x25519Public.val

/-- What `decapsulate` hashes for a ciphertext that was encapsulated to `pk`. -/
def readText (sk : Sized UInt8 64) (pk : HybridKeypair L) (context : Bytes)
    (e : EncapsDraws L) : Bytes :=
  kemContextTag ++ context ++ (L.diffieHellman (seedHead sk) (L.x25519Public e.ephemeral)).val ++
    (decapsulated L (L.fromSeed sk) (L.encapsulate pk.mlkemEnc e.coins).1).val ++
    (L.x25519Public e.ephemeral).val ++ (L.x25519Public e.ephemeral).val

theorem decapsulate_mk (sk : Sized UInt8 64) (x25519Ct : Sized UInt8 32)
    (mlkemCt : Sized UInt8 mlkem768CtSize) (context : Bytes) :
    decapsulate L sk ⟨x25519Ct, mlkemCt.val⟩ context =
      .ok (L.sha3 (kemContextTag ++ context ++ (L.diffieHellman (seedHead sk) x25519Ct).val ++
        (decapsulated L (L.fromSeed sk) mlkemCt).val ++ x25519Ct.val ++ x25519Ct.val)) := by
  have found : L.decapsulateSlice (L.fromSeed sk) mlkemCt.val =
      some (decapsulated L (L.fromSeed sk) mlkemCt) := (Option.some_get _).symm
  rw [decapsulate, errorIf_of_not (not_not.mpr mlkemCt.property), Outcome.ok_bind, found,
    okOr_some, Outcome.ok_bind, L.decBytes_fromSeed]
  rfl

theorem decapsulate_encapsulate (sk : Sized UInt8 64) (pk : HybridKeypair L) (context : Bytes)
    (e : EncapsDraws L) :
    decapsulate L sk (encapsulate pk context e).1 context =
      .ok (L.sha3 (readText sk pk context e)) :=
  decapsulate_mk sk _ (L.encapsulate pk.mlkemEnc e.coins).1 context

theorem encapsulate_snd (pk : HybridKeypair L) (context : Bytes) (e : EncapsDraws L) :
    (encapsulate pk context e).2 = L.sha3 (sentText pk context e) := rfl

variable (L)

/-- The secret key that belongs to public bytes. -/
def secretFromPublic (bytes : Bytes) : Sized UInt8 64 :=
  L.decBytes (L.fromSeed (paddedSeed (L.sha3 (bytes.drop 32))))

theorem generateKeypair_secret (d : KeyDraws L) :
    (generateKeypair L d).2 = secretFromPublic L (pkToBytes (generateKeypair L d).1) := by
  have sized := (generateKeypair L d).1.x25519Public.property
  rw [secretFromPublic, pkToBytes, HybridKeypair.combinedPublicKey, List.drop_left' sized]
  rfl

/-- What a KEM of this shape promises: whoever has the secret key reads what was encapsulated
to the public key, also when key and ciphertext were sent as bytes, and the public bytes do
not give the secret key. -/
structure IsKem : Prop where
  decapsulates : ∀ d context e, let (pk, sk) := generateKeypair L d
    decapsulate L sk (encapsulate pk context e).1 context = .ok (encapsulate pk context e).2
  decapsulatesSent : ∀ d context e, let (pk, sk) := generateKeypair L d
    ∃ pk' ct, pkFromBytes L (pkToBytes pk) = .ok pk' ∧
      (encapsulate pk' context e).1.toBytes >>= HybridCiphertext.fromBytes = .ok ct ∧
      decapsulate L sk ct context = .ok (encapsulate pk' context e).2
  hidden : (∃ d d', pkToBytes (generateKeypair L d).1 = pkToBytes (generateKeypair L d').1 ∧
      (generateKeypair L d).2 ≠ (generateKeypair L d').2) ∨
    ¬ ∃ f : Bytes → Sized UInt8 64,
      ∀ d, (generateKeypair L d).2 = f (pkToBytes (generateKeypair L d).1)

/-- The secret key is always a function of the public bytes, and decapsulation gives the
encapsulated secret only where two digests of different texts coincide. -/
theorem hybridKemRatchet_not_kem :
    ¬ IsKem L ∧
      (∀ d, (generateKeypair L d).2 = secretFromPublic L (pkToBytes (generateKeypair L d).1)) ∧
      ∀ d context e, let (pk, sk) := generateKeypair L d
        decapsulate L sk (encapsulate pk context e).1 context =
            .ok (encapsulate pk context e).2 ↔
          L.sha3 (readText sk pk context e) = L.sha3 (sentText pk context e) := by
  refine ⟨fun kem => ?_, generateKeypair_secret L, fun d context e => ?_⟩
  · rcases kem.hidden with ⟨d, d', same, differ⟩ | none
    · apply differ
      rw [generateKeypair_secret, generateKeypair_secret L d', same]
    · exact none ⟨secretFromPublic L, generateKeypair_secret L⟩
  · show _ = Outcome.ok _ ↔ _
    rw [decapsulate_encapsulate, encapsulate_snd, Outcome.ok.injEq]

def sumBytes (n : Nat) (bytes : Bytes) : Sized UInt8 n :=
  ⟨List.replicate n bytes.sum, List.length_replicate⟩

def padTo (n : Nat) (bytes : Bytes) : Sized UInt8 n :=
  ⟨bytes.takeD n 0, List.takeD_length ..⟩

/-- Digests are sums, and a key agreement adds. -/
def checksumLibrary : PqLibrary where
  EncapsulationKey := Sized UInt8 mlkem768PkSize
  DecapsulationKey := Sized UInt8 64
  Coins := UInt8
  generateKeypair coins := (padTo 64 [coins], padTo _ [coins])
  newFromSlice := tryInto _
  encBytes := id
  fromSeed := id
  decBytes := id
  encapsulationKey dec := padTo _ dec.val
  encapsulate enc coins := (padTo _ [coins], sumBytes 32 (coins :: enc.val.take 1))
  decapsulateSlice dec ct := some (sumBytes 32 (ct.take 1 ++ dec.val.take 1))
  x25519Public := id
  diffieHellman secret public_ := sumBytes 32 (secret.val ++ public_.val)
  sha3 := sumBytes 32
  okm salt ikm info len := sumBytes len (salt ++ ikm ++ asBytes info)
  newFromSlice_encBytes key := tryInto_val key
  encBytes_of_newFromSlice bytes key read := by
    unfold tryInto at read
    split at read
    · cases read
      rfl
    · cases read
  newFromSlice_zero := by rw [tryInto_of_length List.length_replicate]; rfl
  decBytes_fromSeed _ := rfl
  decapsulateSlice_isSome _ _ _ := rfl

theorem checksumLibrary_newFromSlice (bytes : Bytes) :
    checksumLibrary.newFromSlice bytes = tryInto mlkem768PkSize bytes := rfl

def checksumDraws : KeyDraws checksumLibrary where
  ephemeral := sumBytes 32 [5]
  coins := (1 : UInt8)

def checksumEncaps : EncapsDraws checksumLibrary where
  ephemeral := sumBytes 32 [2]
  coins := (7 : UInt8)

/-- One key pair and one encapsulation with the empty context. -/
theorem not_isKem_checksum :
    decapsulate checksumLibrary (generateKeypair checksumLibrary checksumDraws).2
        (encapsulate (generateKeypair checksumLibrary checksumDraws).1 [] checksumEncaps).1 [] ≠
      .ok (encapsulate (generateKeypair checksumLibrary checksumDraws).1 [] checksumEncaps).2 ∧
    ¬ IsKem checksumLibrary := by
  have differ : decapsulate checksumLibrary (generateKeypair checksumLibrary checksumDraws).2
        (encapsulate (generateKeypair checksumLibrary checksumDraws).1 [] checksumEncaps).1 [] ≠
      .ok (encapsulate (generateKeypair checksumLibrary checksumDraws).1 [] checksumEncaps).2 := by
    decide +kernel
  exact ⟨differ, fun kem => differ (kem.decapsulates checksumDraws [] checksumEncaps)⟩

end HybridKem
