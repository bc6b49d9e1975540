import AddMessenger.Protocol
import AddMessenger.Signatures

/-!
# The records of a DHT node

`handle_put` and `handle_blob_put` of `dht-core/src/dht_node.rs`: what a node checks
before it writes a record, in the order of the checks, and what it answers. The
answers of the rate limiter and of the store are arguments, and so are the clock
and the random part of a blob's salt.
-/

namespace DhtNode

open ByteStrings Protocol Signatures

/-- The reply to a request, by its payload. -/
inductive DhtReply where
  | found (key value salt : String) (seq : Int64)
  | error (key message : String)
  deriving DecidableEq

def DhtReply.isFound : DhtReply → Bool
  | found _ _ _ _ => true
  | error _ _ => false

/-- The message of the first check that refuses. -/
def firstRefusal : List (Bool × String) → Option String
  | [] => none
  | (refuses, message) :: rest => if refuses then some message else firstRefusal rest

theorem firstRefusal_eq_none {checks : List (Bool × String)} (passed : firstRefusal checks = none) :
    ∀ check ∈ checks, check.1 = false := by
  induction checks with
  | nil => intro check none; cases none
  | cons first rest ih =>
    obtain ⟨refuses, message⟩ := first
    cases refuses with
    | true => cases passed
    | false => exact List.forall_mem_cons.mpr ⟨rfl, ih passed⟩

variable {P : Primitives}

def verifyDhtPutSignature (cache : KeyCache P) (signData sig publisherFp : String)
    (env : WireEnvelope) (now : Nat) : Bool × KeyCache P :=
  match env.payloadStr "publisher_verifying_key" with
  | some vkB64 =>
    match P.base64Decode vkB64 with
    | none => (false, cache)
    | some vkBytes =>
      match P.verifyingKeyNewFromSlice vkBytes with
      | none => (false, cache)
      | some vk =>
        let derivedFp := fingerprintFromVerifyingKey P vk
        let assertedFp := (env.payloadStr "pq_publisher_fp").getD publisherFp
        if !constantTimeCompare P derivedFp assertedFp then (false, cache)
        else (verifySignatureWithVerifyingKey signData sig vk, cache)
  | none => verifySignature cache signData sig publisherFp now

/-- The key a record is checked against: the one it carries, if that derives to the
fingerprint the record asserts, else the one cached for the publisher. -/
def publisherKey (cache : KeyCache P) (publisherFp : String) (env : WireEnvelope) :
    Option P.VerifyingKey :=
  match env.payloadStr "publisher_verifying_key" with
  | some vkB64 =>
    ((P.base64Decode vkB64).bind P.verifyingKeyNewFromSlice).filter fun vk =>
      constantTimeCompare P (fingerprintFromVerifyingKey P vk)
        ((env.payloadStr "pq_publisher_fp").getD publisherFp)
  | none => (cachedKey cache publisherFp).filter fun _ => validateFingerprint publisherFp

theorem verifyDhtPutSignature_iff {cache : KeyCache P} {signData sig publisherFp : String}
    {env : WireEnvelope} {now : Nat} :
    (verifyDhtPutSignature cache signData sig publisherFp env now).1 = true ↔
      ∃ vk, publisherKey cache publisherFp env = some vk ∧
        verifySignatureWithVerifyingKey signData sig vk = true := by
  simp only [verifyDhtPutSignature, publisherKey]
  cases env.payloadStr "publisher_verifying_key" with
  | none =>
    simp only [verifySignature_iff, Option.filter_eq_some_iff]
    constructor
    · rintro ⟨valid, vk, cached, accepted⟩
      exact ⟨vk, ⟨cached, valid⟩, accepted⟩
    · rintro ⟨vk, ⟨cached, valid⟩, accepted⟩
      exact ⟨valid, vk, cached, accepted⟩
  | some vkB64 =>
    cases bytes : P.base64Decode vkB64 with
    | none => simp [bytes]
    | some vkBytes =>
      cases carried : P.verifyingKeyNewFromSlice vkBytes with
      | none => simp [bytes, carried]
      | some vk =>
        simp only [bytes, Option.bind_some, carried, Option.filter_some]
        cases constantTimeCompare P (fingerprintFromVerifyingKey P vk)
            ((env.payloadStr "pq_publisher_fp").getD publisherFp) with
        | false => simp
        | true => simp

/-- A record that carries the key its asserted fingerprint derives from is checked against
that key. -/
theorem publisherKey_of_carried {cache : KeyCache P} {publisherFp vkB64 : String}
    {env : WireEnvelope} {vk : P.VerifyingKey}
    (carries : env.payloadStr "publisher_verifying_key" = some vkB64)
    (decodes : (P.base64Decode vkB64).bind P.verifyingKeyNewFromSlice = some vk)
    (asserts : (env.payloadStr "pq_publisher_fp").getD publisherFp =
      fingerprintFromVerifyingKey P vk) :
    publisherKey cache publisherFp env = some vk := by
  simp only [publisherKey, carries, decodes, asserts]
  exact Option.filter_eq_some_iff.mpr ⟨rfl, beq_self_eq_true _⟩

/-- The fields of a put with their defaults. -/
structure PutRecord where
  key : String
  value : String
  salt : String
  seq : Int64
  ttl : Int64
  nonce : Int64
  publisherFp : String

def putRecord (env : WireEnvelope) : PutRecord where
  key := (env.payloadStr "key").getD ""
  value := (env.payloadStr "value").getD ""
  salt := (env.payloadStr "salt").getD ""
  seq := (env.payloadI64 "seq").getD 0
  ttl := min ((env.payloadI64 "ttl").getD storeTtl) storeTtl
  nonce := (env.payloadI64 "nonce").getD 0
  publisherFp := (env.payloadStr "publisher_fp").getD ""

namespace PutRecord

def powData (r : PutRecord) : String := s!"{r.key}|{r.value}|{r.salt}|{r.seq}"

def signData (r : PutRecord) : String := s!"{r.key}|{r.value}|{r.salt}|{r.seq}|{r.nonce}"

def powDifficulty (r : PutRecord) : Nat :=
  if startsWith r.key "addr:" then addrPowDifficulty
  else if r.seq = 0 then 8
  else dhtPowDifficulty

end PutRecord

/-- What the limiter and the store answer; `none` is a storage error. -/
structure PutAnswers where
  allowed : Bool
  hasKey : Option Bool
  countKeys : Option Int64
  put : Option Bool

structure NodeState (P : Primitives) where
  cache : KeyCache P
  seenNonces : List (String × Int64)

/-- The checks of `handle_put` before the signature, in order. -/
def putChecks (P : Primitives) (argon2id : Argon2id) (seenNonces : List (String × Int64))
    (env : WireEnvelope) (answers : PutAnswers) : List (Bool × String) :=
  let r := putRecord env
  let expectedNid := computeNullId P r.publisherFp
  [(!answers.allowed, "PUT rate limited (per-publisher)"),
    (!validateNullId r.key, "invalid key format"),
    (maxKeySize < r.key.utf8ByteSize, "key too long"),
    (r.ttl ≤ 0 || maxTtl < r.ttl, "ttl out of range"),
    (!answers.hasKey.getD false && maxTotalKeys ≤ answers.countKeys.getD 0,
      "DHT store full (max keys reached)"),
    (maxValueSize < r.value.utf8ByteSize, "value too large"),
    ((r.key, r.nonce) ∈ seenNonces, "nonce replay"),
    (!(powCheck argon2id r.powData r.nonce.toUInt64 r.powDifficulty
      (asBytes r.publisherFp)).toOption.getD false, "insufficient proof-of-work"),
    (env.sig == "", "missing signature"),
    (!validateFingerprint r.publisherFp, "invalid publisher fingerprint"),
    (!startsWith r.key "cert:" && expectedNid != stripped r.key "addr:",
      "key mismatch: expected " ++ expectedNid)]

def handlePut (argon2id : Argon2id) (s : NodeState P) (env : WireEnvelope) (answers : PutAnswers)
    (now : Nat) : DhtReply × NodeState P :=
  let r := putRecord env
  match firstRefusal (putChecks P argon2id s.seenNonces env answers) with
  | some message => (.error r.key message, s)
  | none =>
    match verifyDhtPutSignature s.cache r.signData env.sig r.publisherFp env now with
    | (false, cache) =>
      (.error r.key "signature verification failed", { s with cache := cache })
    | (true, cache) =>
      match answers.put with
      | some true =>
        (.found r.key r.value r.salt r.seq,
          { cache := cache, seenNonces := (r.key, r.nonce) :: s.seenNonces })
      | some false => (.error r.key "stale sequence", { s with cache := cache })
      | none => (.error r.key "storage error", { s with cache := cache })

/-- A stored put has passed the gate. -/
theorem handlePut_found {argon2id : Argon2id} {s : NodeState P} {env : WireEnvelope}
    {answers : PutAnswers} {now : Nat}
    (found : (handlePut argon2id s env answers now).1.isFound = true) :
    (verifyDhtPutSignature s.cache (putRecord env).signData env.sig (putRecord env).publisherFp
      env now).1 = true := by
  simp only [handlePut] at found
  split at found
  · exact nomatch found
  · split at found
    · exact nomatch found
    · rename_i passed
      rw [passed]

/-- A put is answered with its own record. -/
theorem handlePut_eq_found {argon2id : Argon2id} {s : NodeState P} {env : WireEnvelope}
    {answers : PutAnswers} {now : Nat} {key value salt : String} {seq : Int64}
    (found : (handlePut argon2id s env answers now).1 = .found key value salt seq) :
    key = (putRecord env).key ∧ value = (putRecord env).value ∧ salt = (putRecord env).salt ∧
      seq = (putRecord env).seq := by
  simp only [handlePut] at found
  split at found
  · cases found
  · split at found
    · cases found
    · split at found
      · cases found
        exact ⟨rfl, rfl, rfl, rfl⟩
      · cases found
      · cases found

/-- A put is stored under a null id only. -/
theorem handlePut_nullId {argon2id : Argon2id} {s : NodeState P} {env : WireEnvelope}
    {answers : PutAnswers} {now : Nat} {key value salt : String} {seq : Int64}
    (found : (handlePut argon2id s env answers now).1 = .found key value salt seq) :
    validateNullId key = true := by
  simp only [handlePut] at found
  split at found
  · cases found
  · rename_i passed
    have checked := firstRefusal_eq_none passed (!validateNullId (putRecord env).key,
      "invalid key format") (List.mem_cons_of_mem _ List.mem_cons_self)
    have valid : validateNullId (putRecord env).key = true := by simpa using checked
    split at found
    · cases found
    · split at found
      · cases found
        exact valid
      · cases found
      · cases found

/-- The canonical text of a `cert:` bundle. -/
def certSignData (key value publisherFp : String) : String := s!"{key}|{value}|{publisherFp}"

/-- What one blob-put draws and is answered: the salt, the clock in milliseconds and
the outcome of the store. -/
structure BlobAnswers where
  salt : UInt32
  seqMs : Int64
  put : Option Bool

def handleBlobPut (cache : KeyCache P) (env : WireEnvelope) (answers : BlobAnswers) (now : Nat) :
    DhtReply × KeyCache P :=
  match (env.payloadStr "key").filter (· != "") with
  | none => (.error "" "missing key", cache)
  | some key =>
    match env.payloadStr "value" with
    | none => (.error key "missing value", cache)
    | some value =>
      if maxValueSize < value.utf8ByteSize then (.error key "value too large", cache)
      else
        let sig := (env.payloadStr "sig").getD ""
        let publisherFp := (env.payloadStr "publisher_fp").getD ""
        let salt := s!"blob:{answers.salt}"
        let (verified, cache) :=
          if startsWith key "cert:" then
            verifyDhtPutSignature cache (certSignData key value publisherFp) sig publisherFp env now
          else (true, cache)
        if !verified then (.error key "invalid cert bundle signature", cache)
        else
          match answers.put with
          | some true => (.found key value salt answers.seqMs, cache)
          | some false => (.error key "value too large", cache)
          | none => (.error key "storage error", cache)

/-- A stored `cert:` bundle has passed the gate. -/
theorem handleBlobPut_found {cache : KeyCache P} {env : WireEnvelope} {answers : BlobAnswers}
    {now : Nat} (found : (handleBlobPut cache env answers now).1.isFound = true) :
    ∃ key value, env.payloadStr "key" = some key ∧ env.payloadStr "value" = some value ∧
      (startsWith key "cert:" = true →
        (verifyDhtPutSignature cache
          (certSignData key value ((env.payloadStr "publisher_fp").getD ""))
          ((env.payloadStr "sig").getD "") ((env.payloadStr "publisher_fp").getD "") env now).1 =
            true) := by
  simp only [handleBlobPut] at found
  split at found
  · exact nomatch found
  · rename_i key named
    split at found
    · exact nomatch found
    · rename_i value given
      split at found
      · exact nomatch found
      · refine ⟨key, value, (Option.filter_eq_some_iff.mp named).1, given, ?_⟩
        intro cert
        simp only [cert, if_true] at found
        split at found
        · exact nomatch found
        · rename_i passed
          simpa using passed

/-- What a blob is stored from. -/
theorem handleBlobPut_eq_found {cache : KeyCache P} {env : WireEnvelope} {answers : BlobAnswers}
    {now : Nat} {key value salt : String} {seq : Int64}
    (found : (handleBlobPut cache env answers now).1 = .found key value salt seq) :
    env.payloadStr "key" = some key ∧ env.payloadStr "value" = some value ∧
      value.utf8ByteSize ≤ maxValueSize ∧ answers.put = some true := by
  simp only [handleBlobPut] at found
  split at found
  · cases found
  · rename_i key named
    split at found
    · cases found
    · rename_i value given
      cases put : answers.put with
      | none =>
        simp only [put] at found
        split_ifs at found
      | some stored =>
        cases stored with
        | false =>
          simp only [put] at found
          split_ifs at found
        | true =>
          simp only [put] at found
          split at found
          · cases found
          · rename_i large
            split_ifs at found <;> cases found <;>
              exact ⟨(Option.filter_eq_some_iff.mp named).1, given, not_lt.mp large, rfl⟩

/-- A blob is stored if it is small enough and, under `cert:`, passes the gate. -/
theorem handleBlobPut_of_verified {cache : KeyCache P} {env : WireEnvelope} {answers : BlobAnswers}
    {now : Nat} {key value : String} (named : env.payloadStr "key" = some key) (nonempty : key ≠ "")
    (given : env.payloadStr "value" = some value) (small : value.utf8ByteSize ≤ maxValueSize)
    (verified : startsWith key "cert:" = true → (verifyDhtPutSignature cache
      (certSignData key value ((env.payloadStr "publisher_fp").getD ""))
      ((env.payloadStr "sig").getD "") ((env.payloadStr "publisher_fp").getD "") env now).1 = true)
    (put : answers.put = some true) :
    (handleBlobPut cache env answers now).1 =
      .found key value s!"blob:{answers.salt}" answers.seqMs := by
  have asked : (env.payloadStr "key").filter (· != "") = some key := by
    rw [named, Option.filter_some, if_pos (bne_iff_ne.mpr nonempty)]
  simp only [handleBlobPut, asked, given, if_neg (not_lt.mpr small), put]
  cases cert : startsWith key "cert:" with
  | false => simp
  | true => simp [verified cert]

/-- Outside `cert:` no signature is looked at. -/
theorem handleBlobPut_of_plain {cache : KeyCache P} {env : WireEnvelope} {answers : BlobAnswers}
    {now : Nat} {key value : String} (named : env.payloadStr "key" = some key) (nonempty : key ≠ "")
    (plain : startsWith key "cert:" = false) (given : env.payloadStr "value" = some value)
    (small : value.utf8ByteSize ≤ maxValueSize) (put : answers.put = some true) :
    handleBlobPut cache env answers now =
      (.found key value s!"blob:{answers.salt}" answers.seqMs, cache) := by
  have key : (env.payloadStr "key").filter (· != "") = some key := by
    rw [named, Option.filter_some, if_pos (bne_iff_ne.mpr nonempty)]
  simp only [handleBlobPut, key, given, if_neg (not_lt.mpr small), plain, Bool.false_eq_true,
    if_false, Bool.not_true, put]

end DhtNode
