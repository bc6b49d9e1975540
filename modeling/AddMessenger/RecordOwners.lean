import AddMessenger.BlobStore

/-!
# Whose the records of a bootstrap are

A record under the null id of a fingerprint is meant to be its owner's, and a bundle under
`cert:<H(fp)>` that of the key that derives to `fp`. Both request handlers of
`dht-core/src/dht_node.rs` write the same table, and both go by what the request says of
its publisher.
-/

namespace RecordOwners

open BlobStore ByteStrings ClientSessions Contacts DhtNode Mealy Protocol Signatures

variable {F : Platform}

/-- The text that is signed for a record, but for its nonce. -/
def signedText (key : String) (row : KvRecord) (nonce : Int64) : String :=
  PutRecord.signData ⟨key, row.value, row.salt, row.seq, 0, nonce, row.publisherFp⟩

/-- An identity: the fingerprint it is known by and the key that is bound to it. -/
structure Owner (F : Platform) where
  fp : String
  vk : F.S.VerifyingKey

def Owner.nullId (o : Owner F) : String := computeNullId F.S o.fp

def Owner.certKey (o : Owner F) : String :=
  certBlobKey F (fingerprintFromVerifyingKey F.S o.vk)

/-- Under the owner's null id the record is signed with the owner's key, and under
`cert:<H(fp)>` with a key that derives to the owner's `fp`. -/
structure OwnedRow (o : Owner F) (key : String) (row : KvRecord) : Prop where
  nullId : key = o.nullId → ∃ nonce, Genuine o.vk (signedText key row nonce) row.sig
  cert : key = o.certKey → ∃ vk,
    fingerprintFromVerifyingKey F.S vk = fingerprintFromVerifyingKey F.S o.vk ∧
      Genuine vk (certSignData key row.value row.publisherFp) row.sig

/-- Whatever a get can return under the owner's keys is the owner's. -/
def Owned (o : Owner F) (w : Nodes F.S) : Prop :=
  ∀ node key row, (w node).rows.lookup key = some row → OwnedRow o key row

/-- A `dht-put` that is stored under the owner's null id has the owner's signature; a blob
that is stored is not under it and, under the owner's `cert:` key, has the signature of a key
that derives to the owner's fingerprint. -/
def OwnerWrites (argon2id : Argon2id) (o : Owner F) (w : Nodes F.S) : Event → Prop
  | .dhtPut node env answers now =>
    (putNode argon2id (w node) env answers now).1.isFound = true →
      (putRecord env).key = o.nullId → Genuine o.vk (putRecord env).signData env.sig
  | .blobPut node env answers secs now =>
    (blobPutNode (w node) env answers secs now).1.isFound = true →
      env.payloadStr "key" ≠ some o.nullId ∧
      ∀ value, env.payloadStr "key" = some o.certKey → env.payloadStr "value" = some value →
        ∃ vk, fingerprintFromVerifyingKey F.S vk = fingerprintFromVerifyingKey F.S o.vk ∧
          Genuine vk (certSignData o.certKey value ((env.payloadStr "publisher_fp").getD ""))
            ((env.payloadStr "sig").getD "")
  | .expire _ _ => True

theorem certBlobKey_not_nullId (fp : String) : validateNullId (certBlobKey F fp) = false := by
  refine validateNullId_of_dashless ?_
  rw [certBlobKey, String.toList_append, List.mem_append]
  rintro (fixed | digit)
  · exact absurd fixed (by decide)
  · exact absurd (hexValue_of_mem digit) (by decide)

theorem nullId_ne_certBlobKey (o : Owner F) (fp : String) : o.nullId ≠ certBlobKey F fp := by
  intro same
  have chars := congrArg String.toList same
  simp [Owner.nullId, computeNullId, certBlobKey] at chars

section

variable {argon2id : Argon2id} {o : Owner F} {w : Nodes F.S}

theorem ownedRow_put {node : Nat} {env : WireEnvelope} {answers : PutAnswers} {now : Nat}
    {key value salt : String} {seq : Int64}
    (found : (handlePut argon2id (w node).state env answers now).1 = .found key value salt seq)
    (writes : OwnerWrites argon2id o w (.dhtPut node env answers now)) :
    OwnedRow o key ⟨value, salt, seq, (putRecord env).publisherFp, env.sig⟩ := by
  have stored : (putNode argon2id (w node) env answers now).1.isFound = true := by
    change (handlePut argon2id (w node).state env answers now).1.isFound = true
    rw [found]
    rfl
  have named := handlePut_nullId found
  obtain ⟨rfl, rfl, rfl, rfl⟩ := handlePut_eq_found found
  constructor
  · intro here
    exact ⟨(putRecord env).nonce, writes stored here⟩
  · intro here
    rw [here, Owner.certKey, certBlobKey_not_nullId] at named
    cases named

theorem ownedRow_blob {node : Nat} {env : WireEnvelope} {answers : BlobAnswers} {secs : Int64}
    {now : Nat} {key value salt text : String} {seq : Int64}
    (found : (handleBlobPut (w node).state.cache env answers now).1 = .found key value salt seq)
    (writes : OwnerWrites argon2id o w (.blobPut node env answers secs now)) :
    OwnedRow o key ⟨value, text, secs, (env.payloadStr "publisher_fp").getD "",
      (env.payloadStr "sig").getD ""⟩ := by
  have stored : (blobPutNode (w node) env answers secs now).1.isFound = true := by
    change (handleBlobPut (w node).state.cache env answers now).1.isFound = true
    rw [found]
    rfl
  obtain ⟨named, given, -, -⟩ := handleBlobPut_eq_found found
  obtain ⟨notNullId, certs⟩ := writes stored
  constructor
  · intro here
    exact absurd (here ▸ named) notNullId
  · intro here
    subst here
    exact certs value named given

theorem owned_step (owned : Owned o w) (e : Event) (writes : OwnerWrites argon2id o w e) :
    Owned o (step argon2id w e).2 := by
  intro other key row stored
  rcases step_lookup stored with before | ⟨env, answers, now, rfl, written⟩ |
    ⟨env, answers, secs, now, rfl, written⟩
  · exact owned other key row before
  · rcases lookup_write written with before | ⟨value, salt, seq, found, rfl⟩
    · exact owned other key row before
    · exact ownedRow_put found writes
  · rcases lookup_write written with before | ⟨value, salt, seq, found, rfl⟩
    · exact owned other key row before
    · exact ownedRow_blob found writes

end

/-- In every run in which whatever is stored under an owner's keys has the owner's signature,
what stands under them is the owner's at every moment. -/
theorem owned_where_owner_writes (argon2id : Argon2id) (o : Owner F) (events : List Event)
    (writes : Along (step argon2id) (OwnerWrites argon2id o) (fresh F.S) events) :
    ∀ front back, events = front ++ back → Owned o (final (step argon2id) (fresh F.S) front) := by
  intro front back split
  rw [split, along_append] at writes
  refine final_invariant (Owned o) (fun w e owned writes => owned_step owned e writes) ?_ writes.1
  intro node key row none
  cases none

/-- The fingerprint of the key. -/
def fpOf (vk : UInt8) : String := fingerprintFromVerifyingKey sumScheme vk

/-- A bundle under the key of a fingerprint, signed by some key in its own name. -/
def certPut (fp : String) (vk : UInt8) : WireEnvelope :=
  ⟨"blob-put", .object [("key", .string (certBlobKey (smallPlatform []) fp)),
    ("publisher_fp", .string (fpOf vk)),
    ("publisher_verifying_key", .string (sumScheme.base64Encode [vk])),
    ("sig", .string (sumSign vk
      (certSignData (certBlobKey (smallPlatform []) fp) "v" (fpOf vk)))),
    ("value", .string "v")], ""⟩

def putEvent (env : WireEnvelope) : Event := .blobPut 0 env storedBlob 0 0

theorem certPut_stored (fp : String) (vk : UInt8) (w : Nodes (smallPlatform []).S) :
    ((step noArgon2id w (putEvent (certPut fp vk))).2 0).rows.lookup
      (certBlobKey (smallPlatform []) fp) =
        some ⟨"v", s!"blob:{storedBlob.salt}", 0, fpOf vk, sumSign vk
          (certSignData (certBlobKey (smallPlatform []) fp) "v" (fpOf vk))⟩ := by
  have carried : publisherKey (P := sumScheme) (w 0).state.cache (fpOf vk) (certPut fp vk) =
      some vk := by
    refine publisherKey_of_carried rfl ?_ rfl
    rw [sumScheme_base64]
    rfl
  have verified : (verifyDhtPutSignature (w 0).state.cache
      (certSignData (certBlobKey (smallPlatform []) fp) "v" (fpOf vk))
      (sumSign vk (certSignData (certBlobKey (smallPlatform []) fp) "v" (fpOf vk))) (fpOf vk)
      (certPut fp vk) 0).1 = true := by
    refine verifyDhtPutSignature_iff.mpr ⟨vk, carried, ?_⟩
    exact verifySignatureWithVerifyingKey_iff.mpr
      (Option.isSome_of_eq_some (decoded_sumSign vk _))
  have nonempty : certBlobKey (smallPlatform []) fp ≠ "" := by
    intro empty
    have chars := congrArg String.toList empty
    simp [certBlobKey] at chars
  have found : (handleBlobPut (w 0).state.cache (certPut fp vk) storedBlob 0).1 =
      .found (certBlobKey (smallPlatform []) fp) "v" s!"blob:{storedBlob.salt}" 1000 :=
    handleBlobPut_of_verified rfl nonempty rfl (by decide) (fun _ => verified) rfl
  simp only [putEvent, step, Function.update_self, blobPutNode, Node.write, found,
    AList.lookup_insert]
  rfl

/-- Alice's key is 1. -/
def alice : Owner (smallPlatform []) := ⟨"AABBCCDDEEFF00112233445566778899", (1 : UInt8)⟩

/-- Alice publishes her bundle: it is stored, and it is hers. -/
theorem owned_where_alice_publishes :
    ((final (step noArgon2id) (fresh (smallPlatform []).S)
        [putEvent (certPut (fpOf 1) 1)] 0).rows.lookup alice.certKey).isSome = true ∧
      Owned alice (final (step noArgon2id) (fresh (smallPlatform []).S)
        [putEvent (certPut (fpOf 1) 1)]) := by
  have named : alice.certKey = certBlobKey (smallPlatform []) (fpOf 1) := rfl
  constructor
  · rw [final_cons, final_nil, named, certPut_stored]
    rfl
  refine owned_where_owner_writes noArgon2id alice [putEvent (certPut (fpOf 1) 1)]
    ⟨fun _ => ⟨?_, ?_⟩, trivial⟩ _ [] rfl
  · intro named
    exact nullId_ne_certBlobKey alice (fpOf 1) (Option.some.inj named).symm
  · intro value named given
    cases given
    exact ⟨(1 : UInt8), rfl, genuine_sumSign_iff.mpr rfl⟩

/-- A value without any signature. -/
def unsignedPut (key : String) : WireEnvelope :=
  ⟨"blob-put", .object [("key", .string key), ("value", .string "v")], ""⟩

theorem unsignedPut_stored (o : Owner (smallPlatform [])) (w : Nodes (smallPlatform []).S) :
    ((step noArgon2id w (putEvent (unsignedPut o.nullId))).2 0).rows.lookup o.nullId =
      some ⟨"v", s!"blob:{storedBlob.salt}", 0, "", ""⟩ := by
  have nonempty : o.nullId ≠ "" := by
    intro empty
    have chars := congrArg String.toList empty
    simp [Owner.nullId, computeNullId] at chars
  have plain : startsWith o.nullId "cert:" = false := by
    simp [startsWith, Owner.nullId, computeNullId, List.isPrefixOf]
  have found : handleBlobPut (w 0).state.cache (unsignedPut o.nullId) storedBlob 0 =
      (.found o.nullId "v" s!"blob:{storedBlob.salt}" 1000, (w 0).state.cache) :=
    handleBlobPut_of_plain rfl nonempty plain rfl (by decide) rfl
  simp only [putEvent, step, Function.update_self, blobPutNode, Node.write, found,
    AList.lookup_insert]
  rfl

theorem fpOf_injective {a b : UInt8} (same : fpOf a = fpOf b) : a = b := by
  have eight : ∀ vk : UInt8, fpOf vk = String.ofList (List.replicate 8 (Char.ofUInt8 (0 + vk))) :=
    fun vk => rfl
  rw [eight, eight, ← String.toList_inj, String.toList_ofList, String.toList_ofList,
    UInt8.zero_add, UInt8.zero_add] at same
  have first : Char.ofUInt8 a = Char.ofUInt8 b := (List.cons.inj same).1
  exact UInt8.toNat_inj.mp (congrArg Char.toNat first)

theorem not_genuine_empty (vk : UInt8) (text : String) :
    ¬ Genuine (P := sumScheme) vk text "" := by
  rintro ⟨sig, found, -⟩
  cases found

/-- Under the key of a bundle only the key it is named after is right. -/
theorem not_owned_of_certPut {o : Owner (smallPlatform [])} {key vk : UInt8} (own : o.vk = key)
    (other : key ≠ vk) : ¬ Owned o (final (step noArgon2id) (fresh (smallPlatform []).S)
      [putEvent (certPut (fpOf key) vk)]) := by
  intro owned
  have stored := certPut_stored (fpOf key) vk (fresh (smallPlatform []).S)
  have named : certBlobKey (smallPlatform []) (fpOf key) = o.certKey := by
    rw [Owner.certKey, own]
    rfl
  rw [final_cons, final_nil] at owned
  have row := owned 0 _ _ stored
  obtain ⟨found, same, genuine⟩ := row.cert named
  rw [own] at same
  have whose : found = key := fpOf_injective same
  subst whose
  exact other (genuine_sumSign_iff.mp genuine)

/-- A stranger writes under Alice's null id without a signature, and under the key of her
bundle with a key of its own. -/
theorem stranger_writes :
    ¬ Owned alice (final (step noArgon2id) (fresh (smallPlatform []).S)
        [putEvent (unsignedPut alice.nullId)]) ∧
      ¬ Owned alice (final (step noArgon2id) (fresh (smallPlatform []).S)
        [putEvent (certPut (fpOf 1) 2)]) := by
  constructor
  · intro owned
    have row := owned 0 alice.nullId _ (unsignedPut_stored alice (fresh (smallPlatform []).S))
    obtain ⟨nonce, genuine⟩ := row.nullId rfl
    exact not_genuine_empty 1 _ genuine
  · exact not_owned_of_certPut rfl (by decide)

end RecordOwners
