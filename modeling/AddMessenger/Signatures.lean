import Mathlib.Data.List.AList
import AddMessenger.ByteStrings

/-!
# Signatures and the verifying-key cache

`dht-core/src/crypto_helpers.rs` over `crypto-pq/src/signature.rs`: fingerprints and
null ids, the cache that remembers which ML-DSA-87 key a fingerprint stands for,
and the two functions every signed frame is checked with.

ML-DSA, the hashes, base64 and Unicode case mapping are parameters. The time of an
access to the cache is an argument of the call that makes it.
-/

namespace Signatures

open ByteStrings

/-- The code outside the repository. `verifies` is the verdict of the `Verifier` of
the `ml-dsa` crate, `verifyingKeyNewFromSlice` its `KeyInit::new_from_slice`,
`firstKey` the key a hash map iterates first. -/
structure Primitives where
  VerifyingKey : Type
  Signature : Type
  EncodedVerifyingKey : Type
  EncodedSignature : Type
  keyEq : DecidableEq VerifyingKey
  verifies : VerifyingKey → Bytes → Signature → Bool
  encodedSignatureTryFrom : Bytes → Option EncodedSignature
  signatureDecode : EncodedSignature → Option Signature
  encodedVerifyingKeyTryFrom : Bytes → Option EncodedVerifyingKey
  verifyingKeyDecode : EncodedVerifyingKey → VerifyingKey
  verifyingKeyNewFromSlice : Bytes → Option VerifyingKey
  verifyingKeyToBytes : VerifyingKey → Bytes
  sha256 : Bytes → {b : Bytes // b.length = 32}
  hmacSha256 : Bytes → Bytes → {b : Bytes // b.length = 32}
  blake2b16 : Bytes → {b : Bytes // b.length = 16}
  base64Encode : Bytes → String
  base64Decode : String → Option Bytes
  toUppercase : String → String
  firstKey : List String → Option String
  firstKey_mem : ∀ keys k, firstKey keys = some k → k ∈ keys
  firstKey_isSome : ∀ keys, keys ≠ [] → (firstKey keys).isSome

/-- The errors of `crypto-pq`; those of other crates by their text. -/
inductive PqError where
  | invalidKeyLength (expected got : Nat)
  | invalidSignature
  | verificationFailed
  | signingFailed (text : String)
  | encapsulationFailed (text : String)
  | decapsulationFailed (text : String)
  | keyGenerationFailed (text : String)
  | derivationFailed (text : String)
  | mlDsaError (text : String)
  | mlKemError (text : String)
  | base64Error (text : String)
  | cryptoError (text : String)
  | decodingError (text : String)
  deriving DecidableEq

variable (P : Primitives)

instance : DecidableEq P.VerifyingKey := P.keyEq

/-- A rejected signature is a value here, not an error. -/
def verify (data : Bytes) (sig : P.Signature) (vk : P.VerifyingKey) : Except PqError Bool :=
  .ok (P.verifies vk data sig)

def decodeVerifyingKey (bytes : Bytes) : Except PqError P.VerifyingKey :=
  match P.encodedVerifyingKeyTryFrom bytes with
  | none => .error (.decodingError "Invalid ML-DSA-87 encoded verifying key")
  | some encoded => .ok (P.verifyingKeyDecode encoded)

def fingerprintFromVerifyingKey (vk : P.VerifyingKey) : String :=
  P.base64Encode ((P.sha256 (P.verifyingKeyToBytes vk)).val.take 8)

def isAsciiHexdigit (c : Char) : Bool :=
  ('0' ≤ c && c ≤ '9') || ('a' ≤ c && c ≤ 'f') || ('A' ≤ c && c ≤ 'F')

def validateFingerprint (fp : String) : Bool :=
  (fp.utf8ByteSize == 32 || fp.utf8ByteSize == 40) && fp.toList.all isAsciiHexdigit

def startsWith (text front : String) : Bool := front.toList.isPrefixOf text.toList

/-- The text without `front` where it starts with it, else the text itself. -/
def stripped (text front : String) : String :=
  if startsWith text front then String.ofList (text.toList.drop front.length) else text

def validateNullId (nid : String) : Bool :=
  let parts := (stripped nid "addr:").toList.splitOn '-'
  parts.length == 9 && parts.head? == some "NN".toList &&
    parts.tail.all fun p => (String.ofList p).utf8ByteSize == 4 && p.all isAsciiHexdigit

def computeNullId (fingerprint : String) : String :=
  let hex := hexEncode (P.blake2b16 (asBytes fingerprint)).val
  "NN-" ++ "-".intercalate ((hex.toList.toChunks 4).map String.ofList)

def constantTimeCompare (a b : String) : Bool :=
  P.hmacSha256 (asBytes "constant-time-compare") (asBytes a) ==
    P.hmacSha256 (asBytes "constant-time-compare") (asBytes b)

def validateNullIdStrict (nid fingerprint : String) : Bool :=
  validateNullId nid && validateFingerprint fingerprint &&
    constantTimeCompare P (computeNullId P fingerprint) nid

def certCacheMaxEntries : Nat := 1000

/-- A fingerprint in upper case, its key and the time of the last access. -/
abbrev KeyCache := AList fun _ : String => P.VerifyingKey × Nat

variable {P}

/-- The fingerprints that were not accessed later than any other. -/
def leastRecent (cache : KeyCache P) : List String :=
  (cache.entries.filter fun e => cache.entries.all fun o => e.2.2 ≤ o.2.2).map Sigma.fst

/-- Over capacity, the first entry with the oldest access goes. -/
def evictOverCapacity (cache : KeyCache P) : KeyCache P :=
  if certCacheMaxEntries < cache.entries.length then
    match P.firstKey (leastRecent cache) with
    | some lruKey => cache.erase lruKey
    | none => cache
  else cache

def cacheVerifyingKey (cache : KeyCache P) (fingerprint : String) (vk : P.VerifyingKey)
    (now : Nat) : KeyCache P :=
  evictOverCapacity (cache.insert (P.toUppercase fingerprint) (vk, now))

def bindingConflict (key : String) (existing vk : P.VerifyingKey) : String :=
  let existingB64 := P.base64Encode (P.verifyingKeyToBytes existing)
  let newB64 := P.base64Encode (P.verifyingKeyToBytes vk)
  "SECURITY: fingerprint " ++ key ++ " already bound to a different verifying key (existing=" ++
    String.ofList (existingB64.toList.take 16) ++ ".., rejected=" ++
    String.ofList (newB64.toList.take 16) ++ "..). Identity substitution blocked."

def pinVerifyingKey (cache : KeyCache P) (fingerprint : String) (vk : P.VerifyingKey)
    (now : Nat) : Except String Bool × KeyCache P :=
  let key := P.toUppercase fingerprint
  match cache.lookup key with
  | some (existing, _) =>
    if existing = vk then (.ok true, cache.replace key (existing, now))
    else (.error (bindingConflict key existing vk), cache)
  | none => (.ok true, evictOverCapacity (cache.insert key (vk, now)))

/-- A hit refreshes the time of the last access. -/
def getCachedVerifyingKey (cache : KeyCache P) (fingerprint : String) (now : Nat) :
    Option P.VerifyingKey × KeyCache P :=
  let key := P.toUppercase fingerprint
  match cache.lookup key with
  | some (vk, _) => (some vk, cache.replace key (vk, now))
  | none => (none, cache)

/-- The last line of both functions asks whether `verify` returned, not what. -/
def verifySignature (cache : KeyCache P) (data b64Sig fingerprint : String) (now : Nat) :
    Bool × KeyCache P :=
  if !validateFingerprint fingerprint then (false, cache)
  else
    match P.base64Decode b64Sig with
    | none => (false, cache)
    | some sigBytes =>
      match getCachedVerifyingKey cache fingerprint now with
      | (none, cache) => (false, cache)
      | (some vk, cache) =>
        match P.encodedSignatureTryFrom sigBytes with
        | none => (false, cache)
        | some encSig =>
          match P.signatureDecode encSig with
          | none => (false, cache)
          | some sig => ((verify P (asBytes data) sig vk).isOk, cache)

def verifySignatureWithVerifyingKey (data b64Sig : String) (vk : P.VerifyingKey) : Bool :=
  match P.base64Decode b64Sig with
  | none => false
  | some sigBytes =>
    match P.encodedSignatureTryFrom sigBytes with
    | none => false
    | some encSig =>
      match P.signatureDecode encSig with
      | none => false
      | some sig => (verify P (asBytes data) sig vk).isOk

/-- The key cached for a fingerprint. -/
def cachedKey (cache : KeyCache P) (fingerprint : String) : Option P.VerifyingKey :=
  (cache.lookup (P.toUppercase fingerprint)).map Prod.fst

/-- The ML-DSA signature a base64 text decodes to. -/
def decoded (b64Sig : String) : Option P.Signature :=
  ((P.base64Decode b64Sig).bind P.encodedSignatureTryFrom).bind P.signatureDecode

/-- The text decodes to a signature that ML-DSA accepts for the data under the key. -/
def Genuine (vk : P.VerifyingKey) (data b64Sig : String) : Prop :=
  ∃ sig, decoded b64Sig = some sig ∧ P.verifies vk (asBytes data) sig = true

/-- If the text decodes to a signature at all, ML-DSA accepts it. -/
def Unforged (vk : P.VerifyingKey) (data b64Sig : String) : Prop :=
  ∀ sig, decoded b64Sig = some sig → P.verifies vk (asBytes data) sig = true

section

variable {cache : KeyCache P} {data b64Sig fingerprint : String} {vk : P.VerifyingKey} {now : Nat}

theorem getCachedVerifyingKey_fst :
    (getCachedVerifyingKey cache fingerprint now).1 = cachedKey cache fingerprint := by
  simp only [getCachedVerifyingKey, cachedKey]
  cases found : cache.lookup (P.toUppercase fingerprint) with
  | none => rfl
  | some entry => rfl

/-- A miss leaves the cache alone. -/
theorem getCachedVerifyingKey_of_none (missing : cachedKey cache fingerprint = none) :
    getCachedVerifyingKey cache fingerprint now = (none, cache) := by
  rw [cachedKey, Option.map_eq_none_iff] at missing
  simp only [getCachedVerifyingKey, missing]

theorem lookup_replace {key : String} {entry other : P.VerifyingKey × Nat}
    (found : cache.lookup key = some other) :
    (cache.replace key entry).lookup key = some entry := by
  have here : ∀ l : List (Sigma fun _ : String => P.VerifyingKey × Nat),
      List.dlookup key l = some other → List.dlookup key (List.kreplace key entry l) =
        some entry := by
    intro l
    induction l with
    | nil => intro none; cases none
    | cons first rest ih =>
      intro found
      obtain ⟨name, value⟩ := first
      by_cases same : key = name
      · subst same
        rw [List.kreplace, List.lookmap_cons_some _ rest (dif_pos rfl), List.dlookup_cons_eq]
      · rw [List.dlookup_cons_ne rest ⟨name, value⟩ same] at found
        have later := ih found
        rw [List.kreplace] at later ⊢
        rw [List.lookmap_cons_none _ rest (dif_neg same)]
        exact (List.dlookup_cons_ne _ _ same).trans later
  exact here cache.entries found

theorem lookup_replace_ne {key other : String} {entry : P.VerifyingKey × Nat}
    (apart : other ≠ key) : (cache.replace key entry).lookup other = cache.lookup other := by
  have here : ∀ l : List (Sigma fun _ : String => P.VerifyingKey × Nat),
      List.dlookup other (List.kreplace key entry l) = List.dlookup other l := by
    intro l
    induction l with
    | nil => rfl
    | cons first rest ih =>
      obtain ⟨name, value⟩ := first
      rw [List.kreplace] at ih ⊢
      by_cases same : key = name
      · subst same
        rw [List.lookmap_cons_some _ rest (dif_pos rfl), List.dlookup_cons_ne _ _ apart,
          List.dlookup_cons_ne _ _ apart]
      · rw [List.lookmap_cons_none _ rest (dif_neg same)]
        by_cases found : other = name
        · subst found
          rw [List.dlookup_cons_eq, List.dlookup_cons_eq]
        · rw [List.dlookup_cons_ne _ _ found, ih, List.dlookup_cons_ne _ _ found]
  exact here cache.entries

/-- A lookup leaves the key of its fingerprint. -/
theorem cachedKey_getCached :
    cachedKey (getCachedVerifyingKey cache fingerprint now).2 fingerprint =
      cachedKey cache fingerprint := by
  simp only [getCachedVerifyingKey, cachedKey]
  cases found : cache.lookup (P.toUppercase fingerprint) with
  | none => simp only [found]
  | some entry =>
    simp only [lookup_replace found]
    rfl

/-- No verdict of ML-DSA is looked at: what decodes is accepted. -/
theorem verifySignatureWithVerifyingKey_iff :
    verifySignatureWithVerifyingKey data b64Sig vk = true ↔
      (decoded (P := P) b64Sig).isSome = true := by
  simp only [verifySignatureWithVerifyingKey, decoded]
  cases bytes : P.base64Decode b64Sig with
  | none => simp
  | some sigBytes =>
    cases encoded : P.encodedSignatureTryFrom sigBytes with
    | none => simp [encoded]
    | some encSig =>
      cases signature : P.signatureDecode encSig with
      | none => simp [encoded, signature]
      | some sig => simp [encoded, signature, verify, Except.isOk, Except.toBool]

/-- With a key at hand both functions come to the same verdict. -/
theorem verifySignature_of_cached (valid : validateFingerprint fingerprint = true)
    (cached : cachedKey cache fingerprint = some vk) :
    (verifySignature cache data b64Sig fingerprint now).1 =
      verifySignatureWithVerifyingKey data b64Sig vk := by
  have looked : (getCachedVerifyingKey cache fingerprint now).1 = some vk :=
    getCachedVerifyingKey_fst.trans cached
  simp only [verifySignature, verifySignatureWithVerifyingKey, valid, Bool.not_true,
    Bool.false_eq_true, if_false]
  generalize getCachedVerifyingKey cache fingerprint now = hit at looked
  obtain ⟨found, refreshed⟩ := hit
  cases looked
  cases P.base64Decode b64Sig with
  | none => rfl
  | some sigBytes =>
    cases encoded : P.encodedSignatureTryFrom sigBytes with
    | none => simp only [encoded]
    | some encSig =>
      cases signature : P.signatureDecode encSig with
      | none => simp only [encoded, signature]
      | some sig => simp only [encoded, signature]

/-- A check leaves the key of its fingerprint. -/
theorem cachedKey_verifySignature :
    cachedKey (verifySignature cache data b64Sig fingerprint now).2 fingerprint =
      cachedKey cache fingerprint := by
  simp only [verifySignature]
  split
  · rfl
  · split
    · rfl
    · have kept := @cachedKey_getCached P cache fingerprint now
      generalize getCachedVerifyingKey cache fingerprint now = hit at kept
      obtain ⟨found, refreshed⟩ := hit
      cases found with
      | none => exact kept
      | some vk =>
        simp only
        split
        · exact kept
        · split
          · exact kept
          · exact kept

theorem verifySignature_iff :
    (verifySignature cache data b64Sig fingerprint now).1 = true ↔
      validateFingerprint fingerprint = true ∧ ∃ vk, cachedKey cache fingerprint = some vk ∧
        verifySignatureWithVerifyingKey data b64Sig vk = true := by
  cases valid : validateFingerprint fingerprint with
  | false => simp [verifySignature, valid]
  | true =>
    cases cached : cachedKey cache fingerprint with
    | some vk => simp [verifySignature_of_cached valid cached]
    | none =>
      simp only [verifySignature, valid, Bool.not_true, Bool.false_eq_true, if_false,
        getCachedVerifyingKey_of_none cached]
      cases P.base64Decode b64Sig with
      | none => simp
      | some sigBytes => simp

/-- A signature passes for a fingerprint of the right shape with a key at hand, if it
decodes. -/
theorem verifySignature_passes_iff :
    (verifySignature cache data b64Sig fingerprint now).1 = true ↔
      validateFingerprint fingerprint = true ∧ (cachedKey cache fingerprint).isSome = true ∧
        (decoded (P := P) b64Sig).isSome = true := by
  rw [verifySignature_iff]
  simp only [verifySignatureWithVerifyingKey_iff, exists_and_right, Option.isSome_iff_exists]

theorem genuine_iff_unforged (accepted : (decoded (P := P) b64Sig).isSome = true) :
    Genuine vk data b64Sig ↔ Unforged vk data b64Sig := by
  obtain ⟨sig, same⟩ := Option.isSome_iff_exists.mp accepted
  constructor
  · rintro ⟨other, found, valid⟩ another also
    rw [found] at also
    exact Option.some.inj also ▸ valid
  · intro unforged
    exact ⟨sig, same, unforged sig same⟩

theorem Genuine.unforged (genuine : Genuine vk data b64Sig) : Unforged vk data b64Sig := by
  obtain ⟨sig, found, valid⟩ := genuine
  intro other also
  rw [found] at also
  exact Option.some.inj also ▸ valid

/-- A null id has dashes, with or without the prefix of an address. -/
theorem validateNullId_of_dashless {key : String} (dashless : '-' ∉ key.toList) :
    validateNullId key = false := by
  have plain : '-' ∉ (stripped key "addr:").toList := by
    intro member
    rw [stripped] at member
    split at member
    · rw [String.toList_ofList] at member
      exact dashless (List.mem_of_mem_drop member)
    · exact dashless member
  simp [validateNullId, List.splitOn_eq_singleton plain]

/-- The digits of a null id alone are 32. -/
theorem length_toList_computeNullId (fp : String) :
    32 ≤ (computeNullId P fp).toList.length := by
  have digits : (hexEncode (P.blake2b16 (asBytes fp)).val).toList.length = 32 := by
    rw [hexEncode_toList_length, (P.blake2b16 (asBytes fp)).property]
  have chunks := length_flatten_le_intercalate "-".toList
    ((hexEncode (P.blake2b16 (asBytes fp)).val).toList.toChunks 4)
  rw [flatten_toChunks, digits] at chunks
  simp only [computeNullId, String.toList_append, String.toList_intercalate, List.map_map,
    List.length_append]
  have texts : (String.toList ∘ String.ofList) = id := by
    funext chars
    exact String.toList_ofList
  rw [texts, List.map_id]
  omega

theorem length_computeNullId (fp : String) : 32 ≤ (asBytes (computeNullId P fp)).length :=
  le_trans (length_toList_computeNullId fp) (length_le_asBytes _)

end

def filled (len : Nat) (b : UInt8) : {bytes : Bytes // bytes.length = len} :=
  ⟨List.replicate len b, List.length_replicate⟩

theorem headKey_mem (keys : List String) (k : String) (first : keys.head? = some k) : k ∈ keys :=
  List.mem_of_mem_head? first

theorem headKey_isSome (keys : List String) (nonempty : keys ≠ []) : keys.head?.isSome := by
  cases keys with
  | nil => exact absurd rfl nonempty
  | cons first rest => rfl

/-- A key and a signature are one byte, a signature is the sum of key and data, and
base64 is one character a byte. -/
def sumScheme : Primitives where
  VerifyingKey := UInt8
  Signature := UInt8
  EncodedVerifyingKey := UInt8
  EncodedSignature := UInt8
  keyEq := instDecidableEqUInt8
  verifies vk data sig := sig == data.foldl (· + ·) vk
  encodedSignatureTryFrom bytes := if bytes.length = 1 then bytes.head? else none
  signatureDecode := some
  encodedVerifyingKeyTryFrom bytes := if bytes.length = 1 then bytes.head? else none
  verifyingKeyDecode := id
  verifyingKeyNewFromSlice bytes := if bytes.length = 1 then bytes.head? else none
  verifyingKeyToBytes vk := [vk]
  sha256 b := filled 32 (b.foldl (· + ·) 0)
  hmacSha256 key b := filled 32 ((key ++ b).foldl (· + ·) 0)
  blake2b16 b := filled 16 (b.foldl (· + ·) 0)
  base64Encode bytes := String.ofList (bytes.map Char.ofUInt8)
  base64Decode text := some (text.toList.map fun c => UInt8.ofNat c.toNat)
  toUppercase text := String.ofList (text.toList.map Char.toUpper)
  firstKey := List.head?
  firstKey_mem := headKey_mem
  firstKey_isSome := headKey_isSome

/-- A signature of the small scheme. -/
def sumSign (key : UInt8) (data : String) : String :=
  String.ofList [Char.ofUInt8 ((asBytes data).foldl (· + ·) key)]

theorem sumSign_ne_empty (key : UInt8) (data : String) : sumSign key data ≠ "" := by
  intro empty
  have chars := congrArg String.toList empty
  rw [sumSign, String.toList_ofList] at chars
  cases chars

theorem decoded_sumSign (key : UInt8) (data : String) :
    decoded (P := sumScheme) (sumSign key data) =
      some ((asBytes data).foldl (· + ·) key : UInt8) := by
  have back : ∀ b : UInt8, UInt8.ofNat (Char.ofUInt8 b).toNat = b := fun b => by
    rw [show (Char.ofUInt8 b).toNat = b.toNat from rfl, UInt8.ofNat_toNat]
  have bytes : sumScheme.base64Decode (sumSign key data) =
      some [(asBytes data).foldl (· + ·) key] := by
    change some ((String.ofList _).toList.map _) = _
    rw [String.toList_ofList, List.map_singleton, back]
  rw [decoded, bytes]
  rfl

theorem sumScheme_base64 (bytes : Bytes) :
    sumScheme.base64Decode (sumScheme.base64Encode bytes) = some bytes := by
  have back : (fun c : Char => UInt8.ofNat c.toNat) ∘ Char.ofUInt8 = id := by
    funext b
    exact UInt8.ofNat_toNat
  change some ((String.ofList (bytes.map Char.ofUInt8)).toList.map _) = _
  rw [String.toList_ofList, List.map_map, back, List.map_id]

theorem foldl_add_start (bytes : Bytes) (start : UInt8) :
    bytes.foldl (· + ·) start = start + bytes.foldl (· + ·) 0 := by
  induction bytes generalizing start with
  | nil => exact (UInt8.add_zero start).symm
  | cons x rest ih =>
    rw [List.foldl_cons, List.foldl_cons, ih (start + x), ih (0 + x), UInt8.zero_add,
      UInt8.add_assoc]

/-- It is genuine under its own key only. -/
theorem genuine_sumSign_iff {vk key : UInt8} {data : String} :
    Genuine (P := sumScheme) vk data (sumSign key data) ↔ vk = key := by
  constructor
  · rintro ⟨sig, found, valid⟩
    rw [decoded_sumSign] at found
    cases found
    have same : (asBytes data).foldl (· + ·) key = (asBytes data).foldl (· + ·) vk :=
      beq_iff_eq.mp valid
    rw [foldl_add_start _ key, foldl_add_start _ vk] at same
    exact ((UInt8.add_left_inj _).mp same).symm
  · rintro rfl
    exact ⟨_, decoded_sumSign vk data, beq_self_eq_true _⟩

end Signatures
