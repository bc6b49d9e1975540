import AddMessenger.Presence

/-!
# The blobs on the bootstraps

The table `kv_store` of `dht-core/src/sqlite_store.rs` on each bootstrap, the two requests
that write to it and `handle_blob_get`, which reads it. A request comes from anyone. A row
that has expired is not read any more; when that is, is an event. A bootstrap that cannot be
reached is passed over by `fetch_presence`, and is not in the list it asks.
-/

namespace BlobStore

open ByteStrings ClientSessions Contacts DhtNode Mealy MessageStore PeerConnection Presence Protocol
  Ratchet RatchetConversation Signatures

variable {P : Signatures.Primitives} {F : Platform}

/-- A row, without its times. -/
structure KvRecord where
  value : String
  salt : String
  seq : Int64
  publisherFp : String
  sig : String

structure Node (P : Signatures.Primitives) where
  state : NodeState P
  rows : AList fun _ : String => KvRecord

/-- A row is replaced by what the reply is about. -/
def Node.write (n : Node P) (reply : DhtReply) (row : String → String → Int64 → KvRecord) :
    Node P :=
  match reply with
  | .found key value salt seq => { n with rows := n.rows.insert key (row value salt seq) }
  | .error _ _ => n

/-- The rows of a bootstrap change; `secs` is the clock `put_blob` numbers a row with. -/
inductive Event where
  | dhtPut (node : Nat) (env : WireEnvelope) (answers : PutAnswers) (now : Nat)
  | blobPut (node : Nat) (env : WireEnvelope) (answers : BlobAnswers) (secs : Int64) (now : Nat)
  | expire (node : Nat) (key : String)

abbrev Nodes (P : Signatures.Primitives) := Nat → Node P

def fresh (P : Signatures.Primitives) : Nodes P := fun _ => ⟨⟨∅, []⟩, ∅⟩

def putNode (argon2id : Argon2id) (n : Node P) (env : WireEnvelope) (answers : PutAnswers)
    (now : Nat) : DhtReply × Node P :=
  let (reply, state) := handlePut argon2id n.state env answers now
  (reply, { n with state := state }.write reply fun value salt seq =>
    ⟨value, salt, seq, (putRecord env).publisherFp, env.sig⟩)

/-- The row has the signature of the payload, not the one of the envelope. -/
def blobPutNode (n : Node P) (env : WireEnvelope) (answers : BlobAnswers) (secs : Int64)
    (now : Nat) : DhtReply × Node P :=
  let (reply, cache) := handleBlobPut n.state.cache env answers now
  (reply, { n with state := { n.state with cache := cache } }.write reply fun value salt _ =>
    ⟨value, salt, secs, (env.payloadStr "publisher_fp").getD "", (env.payloadStr "sig").getD ""⟩)

def step (argon2id : Argon2id) (w : Nodes P) : Event → Option DhtReply × Nodes P
  | .dhtPut node env answers now =>
    let (reply, n) := putNode argon2id (w node) env answers now
    (some reply, Function.update w node n)
  | .blobPut node env answers secs now =>
    let (reply, n) := blobPutNode (w node) env answers secs now
    (some reply, Function.update w node n)
  | .expire node key =>
    (none, Function.update w node { w node with rows := (w node).rows.erase key })

def seqNumber (seq : Int64) : Number := if 0 ≤ seq then .posInt seq.toUInt64 else .negInt seq

def dhtError (key message : String) : WireEnvelope :=
  ⟨"dht-error", .object [("key", .string key), ("message", .string message)], ""⟩

def handleBlobGet (n : Node P) (env : WireEnvelope) : WireEnvelope :=
  match (env.payloadStr "key").filter (· != "") with
  | none => dhtError "" "missing key"
  | some key =>
    match n.rows.lookup key with
    | none => dhtError key "not found"
    | some row =>
      ⟨"dht-found", .object [("key", .string key), ("publisher_fp", .string row.publisherFp),
        ("salt", .string row.salt), ("seq", .number (seqNumber row.seq)),
        ("sig", .string row.sig), ("value", .string row.value)], ""⟩

/-- The bootstraps with these numbers, as a reader sees them. -/
def bootstraps (w : Nodes P) (nodes : List Nat) : List Bootstrap :=
  nodes.map fun n env => some (handleBlobGet (w n) env)

/-- An answer is about a row under the key. -/
theorem answerTo_bootstrap {w : Nodes P} {n : Nat} {key : String} {resp : WireEnvelope}
    (answers : answerTo key (fun env => some (handleBlobGet (w n) env)) = some resp) :
    ∃ row, (w n).rows.lookup key = some row ∧ resp.payloadStr "value" = some row.value := by
  obtain ⟨replied, found⟩ := Option.filter_eq_some_iff.mp answers
  have reply : handleBlobGet (w n) (blobGet key) = resp := Option.some.inj replied
  simp only [handleBlobGet, blobGet_key] at reply
  split at reply
  · rw [← reply] at found
    exact absurd found (by decide)
  · rename_i asked named
    obtain ⟨same, -⟩ := Option.filter_eq_some_iff.mp named
    cases same
    split at reply
    · rw [← reply] at found
      exact absurd found (by simp [isFound, dhtError])
    · rename_i row stored
      exact ⟨row, stored, by rw [← reply]; rfl⟩

/-- What is fetched stood in a row under the key. -/
theorem fetchPresence_row {me : Party F} {contactFp address : String} {w : Nodes F.S}
    {nodes : List Nat}
    (fetched : fetchPresence F me contactFp (bootstraps w nodes) = some address) :
    ∃ n row, (w n).rows.lookup (presenceBlobKey F contactFp me.identity.fingerprint) = some row ∧
      openSealed F me.kyber row.value = some address := by
  rw [fetchPresence, fetchFrom_eq] at fetched
  obtain ⟨resp, first, opens⟩ := Option.bind_eq_some_iff.mp fetched
  obtain ⟨server, member, answers⟩ := List.exists_of_findSome?_eq_some first
  obtain ⟨n, -, rfl⟩ := List.mem_map.mp member
  obtain ⟨row, stored, value⟩ := answerTo_bootstrap answers
  refine ⟨n, row, stored, ?_⟩
  rwa [openPresence, value, Option.bind_some] at opens

theorem presenceBlobKey_plain (owner contact : String) :
    startsWith (presenceBlobKey F owner contact) "cert:" = false := by
  simp [startsWith, presenceBlobKey, List.isPrefixOf]

theorem presenceBlobKey_ne_empty (owner contact : String) :
    presenceBlobKey F owner contact ≠ "" := by
  intro same
  have chars := congrArg String.toList same
  simp [presenceBlobKey] at chars

/-- `handle_put` does not take such a key. -/
theorem presenceBlobKey_not_nullId (owner contact : String) :
    validateNullId (presenceBlobKey F owner contact) = false := by
  refine validateNullId_of_dashless ?_
  rw [presenceBlobKey, String.toList_append, List.mem_append]
  rintro (fixed | digit)
  · exact absurd fixed (by decide)
  · exact absurd (hexValue_of_mem digit) (by decide)

/-- The event is a blob-put under the key, and is stored. -/
def Puts (key value : String) (e : Event) : Prop :=
  ∃ node env answers secs now, e = .blobPut node env answers secs now ∧
    env.payloadStr "key" = some key ∧ env.payloadStr "value" = some value ∧
    value.utf8ByteSize ≤ maxValueSize ∧ answers.put = some true

theorem lookup_write {n : Node P} {reply : DhtReply} {row : String → String → Int64 → KvRecord}
    {key : String} {record : KvRecord}
    (stored : (n.write reply row).rows.lookup key = some record) :
    n.rows.lookup key = some record ∨
      ∃ value salt seq, reply = .found key value salt seq ∧ record = row value salt seq := by
  cases reply with
  | error _ _ => exact .inl stored
  | found at_ value salt seq =>
    by_cases here : key = at_
    · subst here
      rw [Node.write, AList.lookup_insert] at stored
      exact .inr ⟨value, salt, seq, rfl, (Option.some.inj stored).symm⟩
    · rw [Node.write, AList.lookup_insert_ne here] at stored
      exact .inl stored

/-- What stands in a table after an event stood there before, or the event has written it. -/
theorem step_lookup {argon2id : Argon2id} {w : Nodes P} {e : Event} {m : Nat} {key : String}
    {record : KvRecord} (stored : ((step argon2id w e).2 m).rows.lookup key = some record) :
    (w m).rows.lookup key = some record ∨
    (∃ env answers now, e = .dhtPut m env answers now ∧
      (putNode argon2id (w m) env answers now).2.rows.lookup key = some record) ∨
    ∃ env answers secs now, e = .blobPut m env answers secs now ∧
      (blobPutNode (w m) env answers secs now).2.rows.lookup key = some record := by
  cases e with
  | dhtPut node env answers now =>
    by_cases here : m = node
    · subst here
      simp only [step, Function.update_self] at stored
      exact .inr (.inl ⟨env, answers, now, rfl, stored⟩)
    · simp only [step, Function.update_of_ne here] at stored
      exact .inl stored
  | blobPut node env answers secs now =>
    by_cases here : m = node
    · subst here
      simp only [step, Function.update_self] at stored
      exact .inr (.inr ⟨env, answers, secs, now, rfl, stored⟩)
    · simp only [step, Function.update_of_ne here] at stored
      exact .inl stored
  | expire node old =>
    left
    by_cases here : m = node
    · subst here
      simp only [step, Function.update_self] at stored
      by_cases same : key = old
      · subst same
        rw [AList.lookup_erase] at stored
        cases stored
      · rwa [AList.lookup_erase_ne same] at stored
    · simpa only [step, Function.update_of_ne here] using stored

/-- A row under a key that is no null id was there before or is put by the event. -/
theorem step_row {argon2id : Argon2id} {w : Nodes P} {e : Event} {m : Nat} {key : String}
    {record : KvRecord} (notNullId : validateNullId key = false)
    (stored : ((step argon2id w e).2 m).rows.lookup key = some record) :
    (w m).rows.lookup key = some record ∨ Puts key record.value e := by
  rcases step_lookup stored with before | ⟨env, answers, now, rfl, written⟩ |
    ⟨env, answers, secs, now, rfl, written⟩
  · exact .inl before
  · rcases lookup_write written with before | ⟨value, salt, seq, found, -⟩
    · exact .inl before
    · rw [handlePut_nullId found] at notNullId
      cases notNullId
  · rcases lookup_write written with before | ⟨value, salt, seq, found, rfl⟩
    · exact .inl before
    · exact .inr ⟨m, env, answers, secs, now, rfl, handleBlobPut_eq_found found⟩

/-- Every row of a run was put in it. -/
theorem rows_put {argon2id : Argon2id} {key : String} (notNullId : validateNullId key = false)
    (events : List Event) (m : Nat) (record : KvRecord)
    (stored : (final (step argon2id) (fresh P) events m).rows.lookup key = some record) :
    ∃ e ∈ events, Puts key record.value e := by
  have rows : ∀ m record,
      (final (step argon2id) (fresh P) events m).rows.lookup key = some record →
        ∃ e ∈ events, Puts key record.value e := by
    have all : Along (step argon2id) (fun _ e => e ∈ events) (fresh P) events :=
      (along_mem _ events).mpr fun e member => member
    refine final_invariant (fun w : Nodes P => ∀ m record, (w m).rows.lookup key = some record →
      ∃ e ∈ events, Puts key record.value e) ?_ ?_ all
    · intro w e earlier member m record stored
      rcases step_row notNullId stored with before | puts
      · exact earlier m record before
      · exact ⟨e, member, puts⟩
    · intro m record stored
      cases stored
  exact rows m record stored

variable (F) in
/-- A stored put under the reader's key that the reader can open has the contact's signature
over `key|value` in its envelope. -/
def SignedByContact (vk : F.S.VerifyingKey) (ourKp : MlKem1024Keypair F.R) (key : String) :
    Event → Prop
  | .blobPut _ env answers _ _ =>
    ∀ value, env.payloadStr "key" = some key → env.payloadStr "value" = some value →
      value.utf8ByteSize ≤ maxValueSize → answers.put = some true →
        (openSealed F ourKp value).isSome = true → Genuine vk (key ++ "|" ++ value) env.sig
  | .dhtPut _ _ _ _ => True
  | .expire _ _ => True

variable (F) in
/-- The holder of the key has published this address. -/
def Published (vk : F.S.VerifyingKey) (ourKp : MlKem1024Keypair F.R) (key address : String) :
    Event → Prop
  | .blobPut _ env _ _ _ => ∃ value, env.payloadStr "key" = some key ∧
    env.payloadStr "value" = some value ∧ openSealed F ourKp value = some address ∧
      Genuine vk (key ++ "|" ++ value) env.sig
  | .dhtPut _ _ _ _ => False
  | .expire _ _ => False

/-- Whatever the reader fetches was published by the contact. -/
def Authentic (me : Party F) (contactFp : String) (vk : F.S.VerifyingKey) (events : List Event)
    (w : Nodes F.S) : Prop :=
  ∀ nodes address, fetchPresence F me contactFp (bootstraps w nodes) = some address →
    ∃ e ∈ events,
      Published F vk me.kyber (presenceBlobKey F contactFp me.identity.fingerprint) address e

/-- In every run whose puts under the reader's key are signed, what is fetched is the
contact's. -/
theorem authentic_where_signed (argon2id : Argon2id) (me : Party F) (contactFp : String)
    (vk : F.S.VerifyingKey) (events : List Event)
    (signed : ∀ e ∈ events,
      SignedByContact F vk me.kyber (presenceBlobKey F contactFp me.identity.fingerprint) e) :
    Authentic me contactFp vk events (final (step argon2id) (fresh F.S) events) := by
  intro nodes address fetched
  obtain ⟨n, row, stored, opens⟩ := fetchPresence_row fetched
  obtain ⟨e, member, node, env, answers, secs, now, rfl, named, given, small, put⟩ :=
    rows_put (presenceBlobKey_not_nullId contactFp me.identity.fingerprint) events n row stored
  have genuine := signed _ member row.value named given small put
    (Option.isSome_of_eq_some opens)
  exact ⟨_, member, row.value, named, given, opens, genuine⟩

/-- Whoever puts a value last decides what is fetched, with any signature or none. -/
theorem fetchPresence_after_put {argon2id : Argon2id} {me : Party F} {contactFp value : String}
    {w : Nodes F.S} {n : Nat} {env : WireEnvelope} {answers : BlobAnswers} {secs : Int64}
    {now : Nat}
    (named : env.payloadStr "key" = some (presenceBlobKey F contactFp me.identity.fingerprint))
    (given : env.payloadStr "value" = some value) (small : value.utf8ByteSize ≤ maxValueSize)
    (put : answers.put = some true) :
    fetchPresence F me contactFp
        (bootstraps (step argon2id w (.blobPut n env answers secs now)).2 [n]) =
      openSealed F me.kyber value := by
  have stored : ∃ row, (((step argon2id w (.blobPut n env answers secs now)).2) n).rows.lookup
      (presenceBlobKey F contactFp me.identity.fingerprint) = some row ∧ row.value = value := by
    simp only [step, Function.update_self, blobPutNode, Node.write, AList.lookup_insert,
      handleBlobPut_of_plain named (presenceBlobKey_ne_empty contactFp me.identity.fingerprint)
        (presenceBlobKey_plain contactFp me.identity.fingerprint) given small put]
    exact ⟨_, rfl, rfl⟩
  obtain ⟨row, holds, rfl⟩ := stored
  have asked : ((blobGet (presenceBlobKey F contactFp me.identity.fingerprint)).payloadStr
      "key").filter (· != "") = some (presenceBlobKey F contactFp me.identity.fingerprint) := by
    rw [blobGet_key, Option.filter_some,
      if_pos (bne_iff_ne.mpr (presenceBlobKey_ne_empty contactFp me.identity.fingerprint))]
  rw [fetchPresence, fetchFrom_eq]
  simp only [bootstraps, List.map_cons, List.map_nil, List.findSome?_cons, answerTo, handleBlobGet,
    asked, holds]
  rfl

theorem utf8Len_le (chars : List Char) : String.utf8Len chars ≤ 4 * chars.length := by
  induction chars with
  | nil => exact Nat.zero_le _
  | cons c rest ih =>
    have four := c.utf8Size_le_four
    rw [String.utf8Len_cons, List.length_cons]
    omega

theorem hexDigit_utf8Size {b : Bytes} {c : Char} (member : c ∈ (hexEncode b).toList) :
    c.utf8Size = 1 := by
  rw [Char.utf8Size_eq_one_iff, UInt32.le_iff_toNat_le]
  exact le_trans (hexValue_bounds (hexValue_of_mem member)).2 (by decide)

theorem latin1Encode_asBytes {text : String} (ascii : ∀ c ∈ text.toList, c.utf8Size = 1) :
    latin1Encode (asBytes text) = text := by
  have chars : ∀ l : List Char, (∀ c ∈ l, c.utf8Size = 1) →
      l.utf8Encode.data.toList.map Char.ofUInt8 = l := by
    intro l
    induction l with
    | nil => intro _; rfl
    | cons c rest ih =>
      intro ascii
      obtain ⟨here, later⟩ := List.forall_mem_cons.mp ascii
      have back : Char.ofUInt8 c.toUInt8 = c := by
        have bound := UInt32.le_iff_toNat_le.mp (Char.utf8Size_eq_one_iff.mp here)
        refine Char.ext (UInt32.toNat_inj.mp ?_)
        change c.val.toUInt8.toUInt32.toNat = c.val.toNat
        rw [UInt8.toNat_toUInt32, UInt32.toNat_toUInt8]
        exact Nat.mod_eq_of_lt (lt_of_le_of_lt bound (by decide))
      rw [List.utf8Encode_cons, List.utf8Encode_singleton, String.utf8EncodeChar_eq_singleton here]
      simp [back, ih later]
  have whole := chars text.toList ascii
  rw [String.utf8Encode_toList] at whole
  rw [latin1Encode, asBytes, whole, String.ofList_toList]

theorem hex_dotless (b : Bytes) : '.' ∉ (latin1Encode (asBytes (hexEncode b))).toList := by
  rw [latin1Encode_asBytes fun _ => hexDigit_utf8Size]
  intro member
  exact absurd (hexValue_of_mem member) (by decide)

theorem latin1Encode_utf8ByteSize (b : Bytes) : (latin1Encode b).utf8ByteSize ≤ 4 * b.length := by
  have bound := utf8Len_le (b.map Char.ofUInt8)
  rwa [List.length_map, ← String.utf8ByteSize_ofList] at bound

/-- A blob of the small instance fits into the store. -/
theorem presenceBlob_small {me : Account (smallPlatform [])} {address contactFp : String}
    {s : Sealing (smallPlatform [])} {key coins : UInt8} {blob : Blob}
    (made : presenceBlob (smallPlatform []) me address contactFp s = .ok blob)
    (toReader : pairEncapsulate (smallPlatform []) contactFp s.coins s.servers "" =
      .ok (hexEncode (checksumPrimitives.encapsulate key coins).1.val,
        (checksumPrimitives.encapsulate key coins).2.val))
    (short : (asBytes address).length ≤ 900) : blob.value.utf8ByteSize ≤ maxValueSize := by
  obtain ⟨kemCtHex, ss, aesBlob, encapsulated, sealed, -, value, -⟩ := presenceBlob_ok_iff.mp made
  rw [toReader] at encapsulated
  cases encapsulated
  have size := (checksumPrimitives.encapsulate key coins).1.property
  generalize (checksumPrimitives.encapsulate key coins).1.val = ct at value size
  have front : (latin1Encode (asBytes (hexEncode ct))).utf8ByteSize ≤ 4 * (2 * ct.length) := by
    rw [latin1Encode_asBytes fun _ => hexDigit_utf8Size, ← String.utf8Len_toList,
      ← hexEncode_toList_length]
    exact utf8Len_le _
  have back : aesBlob.utf8ByteSize ≤ 4 * (nonceSize + ((asBytes address).length + 16)) := by
    cases sealed
    refine le_trans (latin1Encode_utf8ByteSize _) ?_
    rw [List.length_append, s.nonce.property, checksumSeal, List.length_append, checksumTag,
      List.length_replicate]
  have whole : blob.value.utf8ByteSize =
      (latin1Encode (asBytes (hexEncode ct))).utf8ByteSize + 1 + aesBlob.utf8ByteSize := by
    rw [value, String.utf8ByteSize_append, String.utf8ByteSize_append]
    rfl
  rw [whole, maxValueSize]
  rw [nonceSize] at back
  omega

/-- Bob's certificate, and what is drawn for a blob. -/
def toBob : Sealing (smallPlatform []) :=
  ⟨[fun _ => .ok ⟨"", "", "B"⟩], (4 : UInt8), checksumNonce⟩

theorem toBob_encapsulates : pairEncapsulate (smallPlatform []) bobFp toBob.coins toBob.servers "" =
    .ok (hexEncode (checksumPrimitives.encapsulate (66 : UInt8) (4 : UInt8)).1.val,
      (checksumPrimitives.encapsulate (66 : UInt8) (4 : UInt8)).2.val) := rfl

/-- Mallory takes Alice's fingerprint and does not sign. -/
def mallory : Account (smallPlatform []) :=
  { Presence.alice.toAccount with sign := fun _ => .ok "" }

def storedBlob : BlobAnswers := { salt := 7, seqMs := 1000, put := some true }

def noArgon2id : Argon2id := fun _ _ => .error "memory"

theorem bob_undoes :
    Undoes (P := checksumPrimitives) Presence.bob.kyber.dec Presence.bob.kyber.enc := fun _ => rfl

/-- A blob for Bob under Alice's key. -/
theorem blob_for_bob (me : Account (smallPlatform [])) (fp : me.identity.fingerprint = aliceFp)
    (address : String) (short : (asBytes address).length ≤ 900)
    (signs : ∀ data, ∃ sig, me.sign data = .ok sig) :
    ∃ blob, presenceBlob (smallPlatform []) me address bobFp toBob = .ok blob ∧
      blob.key = presenceBlobKey (smallPlatform []) aliceFp bobFp ∧
      blob.value.utf8ByteSize ≤ maxValueSize ∧
      openSealed (smallPlatform []) Presence.bob.kyber blob.value = some address ∧
      me.sign (blob.key ++ "|" ++ blob.value) = .ok blob.sig := by
  obtain ⟨blob, made⟩ : ∃ blob, presenceBlob (smallPlatform []) me address bobFp toBob = .ok blob :=
    presenceBlob_isOk toBob_encapsulates rfl signs
  have opens : openSealed (smallPlatform []) Presence.bob.kyber blob.value = some address :=
    openSealed_presenceBlob (F := smallPlatform []) checksumPrimitives_correct hex_dotless
      bob_undoes made toBob_encapsulates
  obtain ⟨-, -, -, -, -, key, -, signed⟩ := presenceBlob_ok_iff.mp made
  rw [fp] at key
  exact ⟨blob, made, key, presenceBlob_small made toBob_encapsulates short, opens, signed⟩

def putOf (blob : Blob) : Event := .blobPut 0 (blobPut aliceFp blob) storedBlob 0 0

theorem fetch_after_putOf {blob : Blob} {address : String}
    (key : blob.key = presenceBlobKey (smallPlatform []) aliceFp bobFp)
    (small : blob.value.utf8ByteSize ≤ maxValueSize)
    (opens : openSealed (smallPlatform []) Presence.bob.kyber blob.value = some address) :
    fetchPresence (smallPlatform []) Presence.bob.toParty aliceFp
      (bootstraps (final (step noArgon2id) (fresh sumScheme) [putOf blob]) [0]) = some address := by
  have named : (blobPut aliceFp blob).payloadStr "key" =
      some (presenceBlobKey (smallPlatform []) aliceFp Presence.bob.identity.fingerprint) :=
    congrArg some key
  rw [← opens]
  exact fetchPresence_after_put named rfl small rfl

/-- Alice's own blob is signed, and Bob fetches it. -/
theorem authentic_where_signed_alice :
    ∃ blob, presenceBlob (smallPlatform []) Presence.alice.toAccount "ws://a" bobFp toBob =
        .ok blob ∧
      fetchPresence (smallPlatform []) Presence.bob.toParty aliceFp
        (bootstraps (final (step noArgon2id) (fresh sumScheme) [putOf blob]) [0]) =
          some "ws://a" ∧
      Authentic (F := smallPlatform []) Presence.bob.toParty aliceFp (65 : UInt8) [putOf blob]
        (final (step noArgon2id) (fresh sumScheme) [putOf blob]) := by
  obtain ⟨blob, made, key, small, opens, signed⟩ := blob_for_bob Presence.alice.toAccount rfl
    "ws://a" (by decide) fun data => ⟨sumSign 65 data, rfl⟩
  refine ⟨blob, made, fetch_after_putOf key small opens, ?_⟩
  refine authentic_where_signed (F := smallPlatform []) noArgon2id Presence.bob.toParty aliceFp
    (65 : UInt8) [putOf blob] ?_
  intro e member
  cases List.mem_singleton.mp member
  intro value _ given _ _ _
  have sameValue : blob.value = value := Option.some.inj given
  have sig : blob.sig = sumSign 65 (blob.key ++ "|" ++ blob.value) := (Except.ok.inj signed).symm
  change Genuine (P := sumScheme) (65 : UInt8)
    (presenceBlobKey (smallPlatform []) aliceFp bobFp ++ "|" ++ value) blob.sig
  rw [sig, ← key, ← sameValue]
  exact genuine_sumSign_iff.mpr rfl

/-- Mallory's blob has no signature at all, and Bob takes its address for Alice's. -/
theorem mallory_poses_as_alice :
    ∃ blob, presenceBlob (smallPlatform []) mallory "ws://m" bobFp toBob = .ok blob ∧
      fetchPresence (smallPlatform []) Presence.bob.toParty aliceFp
        (bootstraps (final (step noArgon2id) (fresh sumScheme) [putOf blob]) [0]) =
          some "ws://m" ∧
      ¬ Authentic (F := smallPlatform []) Presence.bob.toParty aliceFp (65 : UInt8) [putOf blob]
        (final (step noArgon2id) (fresh sumScheme) [putOf blob]) := by
  obtain ⟨blob, made, key, small, opens, signed⟩ := blob_for_bob mallory rfl "ws://m"
    (by decide) fun _ => ⟨"", rfl⟩
  have fetched := fetch_after_putOf key small opens
  refine ⟨blob, made, fetched, ?_⟩
  intro authentic
  obtain ⟨e, member, published⟩ := authentic [0] "ws://m" fetched
  cases List.mem_singleton.mp member
  obtain ⟨value, -, -, -, sig, decodes, -⟩ := published
  have unsigned : blob.sig = "" := (Except.ok.inj signed).symm
  change decoded (P := sumScheme) blob.sig = some sig at decodes
  rw [unsigned] at decodes
  cases decodes

end BlobStore
