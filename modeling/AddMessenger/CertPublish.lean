import AddMessenger.BlobStore
import AddMessenger.StoreBounds

/-!
# Publishing a certificate

`dht_publish_cert` of `client/src/main.rs` signs its bundle once and puts it under two keys,
the hash of its post-quantum fingerprint and the hash of its OpenPGP fingerprint;
`dht_fetch_cert` reads it back under either. A bootstrap answers with `handle_blob_put` and
`handle_blob_get` over its tables.

ML-DSA signing and the OpenPGP library are parameters. What a publisher reads from its disk
is data: its signing key, its certificate and its Kyber key.
-/

namespace CertPublish

open ByteStrings ClientSessions Contacts DhtNode Protocol Signatures StoreBounds
open DhtStore (Db KvRow expires)

/-- The part of the `ml-dsa` crate that signs. -/
structure MlDsa (S : Signatures.Primitives) where
  SigningKey : Type
  newFromSlice : Bytes → Except String SigningKey
  verifyingKey : SigningKey → S.VerifyingKey
  sign : SigningKey → Bytes → S.Signature
  encodeSignature : S.Signature → Bytes

/-- What is read for a publication: the signing key of the identity at hand and the one that
`sign_for_transport` finds on disk, the public certificate in armor, its fingerprint in upper
case and the Kyber key. -/
structure Publisher where
  signingKey : Option String
  transportKey : Except String (Option String)
  armored : Except String String
  gpgFp : Except String String
  kyberEnc : Except String String

variable (F : Platform) (D : MlDsa F.S)

def loadSigningKey (decodeError skB64 : String) : Except String D.SigningKey :=
  match F.R.base64Decode skB64 with
  | .error e => .error (decodeError ++ e)
  | .ok skBytes =>
    match D.newFromSlice skBytes with
    | .error e => .error ("ML-DSA-87 key reconstruction failed: " ++ e)
    | .ok sk => .ok sk

def signData (data : String) (sk : D.SigningKey) : String :=
  F.S.base64Encode (D.encodeSignature (D.sign sk (asBytes data)))

def keyNotFound : String := "ML-DSA-87 signing key not found - re-run 'add init'"

def signForTransport (me : Publisher) (data : String) : Except String String :=
  match me.transportKey with
  | .error e => .error ("Failed to load identity: " ++ e)
  | .ok none => .error keyNotFound
  | .ok (some skB64) =>
    match loadSigningKey F D "Failed to decode signing key: " skB64 with
    | .error e => .error e
    | .ok sk => .ok (signData F D data sk)

/-- The bundle under both keys. -/
def bundle (certB64 vkB64 kyberEnc fp : String) : Json :=
  .object [("cert", .string certB64), ("fp", .string fp), ("kyber_enc", .string kyberEnc),
    ("vk", .string vkB64)]

/-- What is computed before the first bootstrap is asked. -/
structure Publication where
  fp : String
  vkB64 : String
  kyberEnc : String
  value : String
  sig : String

def publication (me : Publisher) : Except String Publication :=
  match me.armored with
  | .error e => .error e
  | .ok armored =>
    match me.signingKey with
    | none => .error keyNotFound
    | some skB64 =>
      match loadSigningKey F D "" skB64 with
      | .error e => .error e
      | .ok sk =>
        let vkB64 := F.S.base64Encode (F.S.verifyingKeyToBytes (D.verifyingKey sk))
        let fp := fingerprintFromVerifyingKey F.S (D.verifyingKey sk)
        match me.kyberEnc with
        | .error e => .error e
        | .ok kyberEnc =>
          let certB64 := F.R.base64Encode (asBytes armored)
          let value := F.R.base64Encode
            (asBytes (F.J.display (bundle certB64 vkB64 kyberEnc fp)))
          match signForTransport F D me (certSignData (certBlobKey F fp) value fp) with
          | .error e => .error e
          | .ok sig => .ok ⟨fp, vkB64, kyberEnc, value, sig⟩

/-- The request that puts the bundle under the key of a fingerprint. The nonce is the length
of a random text. -/
def blobPutUnder (pub : Publication) (fingerprint : String) : WireEnvelope where
  msgType := "blob-put"
  payload := .object [("key", .string (certBlobKey F fingerprint)),
    ("kyber_enc", .string pub.kyberEnc), ("nonce", .number (.posInt 32)),
    ("pq_publisher_fp", .string pub.fp), ("publisher_fp", .string pub.fp),
    ("publisher_verifying_key", .string pub.vkB64), ("sig", .string pub.sig),
    ("ttl", .number (.posInt 7200)), ("value", .string pub.value), ("vk", .string pub.vkB64)]
  sig := pub.sig

def reqPq (pub : Publication) : WireEnvelope := blobPutUnder F pub pub.fp

def reqGpg (pub : Publication) (gpgFp : String) : WireEnvelope := blobPutUnder F pub gpgFp

/-- What comes of a request; `silent` stands for any answer that is no envelope. -/
inductive Exchange where
  | sendFailed (text : String)
  | silent
  | answered (resp : WireEnvelope)

/-- A bootstrap: it cannot be reached, or it answers requests. -/
abbrev Seed := Except String (WireEnvelope → Exchange)

/-- The bootstraps that took a bundle so far, counted twice for both keys, and the last
error. -/
structure Progress where
  successCount : Nat
  lastError : Option String

def Progress.failed (p : Progress) (text : String) : Progress := { p with lastError := some text }

/-- The answer to one of the requests; `suffix` tells the second one. -/
def Progress.afterAnswer (p : Progress) (suffix : String) : Exchange → Progress
  | .answered resp =>
    if resp.msgType == "dht-found" then { p with successCount := p.successCount + 1 }
    else p.failed ("cert publish rejected" ++ suffix ++ ": " ++ resp.msgType)
  | _ => p

/-- One turn of the loop. An error of the OpenPGP library ends the whole publication. -/
def publishTo (me : Publisher) (pub : Publication) (p : Progress) :
    Seed → Except String Progress
  | .error e => .ok (p.failed ("DHT connect failed: " ++ e))
  | .ok exchange =>
    match exchange (reqPq F pub) with
    | .sendFailed e => .ok (p.failed ("cert publish send failed: " ++ e))
    | first =>
      match me.gpgFp with
      | .error e => .error e
      | .ok gpgFp =>
        match exchange (reqGpg F pub gpgFp) with
        | .sendFailed e =>
          .ok ((p.afterAnswer "" first).failed ("cert publish send failed (gpg): " ++ e))
        | second => .ok ((p.afterAnswer "" first).afterAnswer " (gpg)" second)

def dhtPublishCert (me : Publisher) (seeds : List Seed) : Except String Unit := do
  let pub ← publication F D me
  let p ← seeds.foldlM (publishTo F me pub) ⟨0, none⟩
  if 0 < p.successCount then .ok ()
  else .error (p.lastError.getD "No bootstrap servers available")

/-- The certificate and the keys in a value, which is the base64 text of a bundle. -/
def openBundle (value : String) : Except String CertBundle :=
  match F.R.base64Decode value with
  | .error e => .error ("cert blob not base64: " ++ e)
  | .ok bundleBytes =>
    match (fromUtf8 bundleBytes).map F.J.fromStr with
    | none => .error "cert bundle not JSON: invalid utf-8"
    | some (.error e) => .error ("cert bundle not JSON: " ++ e)
    | some (.ok fields) =>
      let text := fun name => ((fields.get name).bind Json.asStr).getD ""
      match F.R.base64Decode (text "cert") with
      | .error e => .error ("cert not base64: " ++ e)
      | .ok armoredBytes =>
        match fromUtf8 armoredBytes with
        | none => .error "cert blob not utf8: invalid utf-8 sequence"
        | some armored => .ok ⟨armored, text "vk", text "kyber_enc"⟩

def dhtFetchCert (seed : Seed) (fingerprint : String) : Except String CertBundle :=
  match seed with
  | .error e => .error ("DHT connect failed: " ++ e)
  | .ok exchange =>
    match exchange (Presence.blobGet (certBlobKey F fingerprint)) with
    | .sendFailed e => .error ("cert fetch send failed: " ++ e)
    | .silent => .error "no response from bootstrap"
    | .answered resp =>
      if resp.msgType != "dht-found" then .error ("cert not found: " ++ resp.msgType)
      else
        match resp.payloadStr "value" with
        | none => .error "missing cert blob value"
        | some value => openBundle F value

/-- The answer of a bootstrap to a `blob-get`. -/
def handleBlobGet (db : Db) (env : WireEnvelope) (now : ℚ) : WireEnvelope :=
  match (env.payloadStr "key").filter (· != "") with
  | none => BlobStore.dhtError "" "missing key"
  | some key =>
    match db.get key now with
    | none => BlobStore.dhtError key "not found"
    | some row =>
      ⟨"dht-found", .object [("key", .string key), ("publisher_fp", .string row.publisherFp),
        ("salt", .string row.salt), ("seq", .number (BlobStore.seqNumber row.seq)),
        ("sig", .string row.sig), ("value", .string row.value)], ""⟩

/-- A bootstrap with these tables, as a reader meets it at a moment. -/
def reader (db : Db) (now : ℚ) : Seed := .ok fun env => .answered (handleBlobGet db env now)

/-- What the crates are documented to do: encodings are undone. -/
structure Laws : Prop where
  keyBase64 : ∀ b, F.S.base64Decode (F.S.base64Encode b) = some b
  base64 : ∀ b, F.R.base64Decode (F.R.base64Encode b) = .ok b
  key : ∀ vk, F.S.verifyingKeyNewFromSlice (F.S.verifyingKeyToBytes vk) = some vk
  signature : ∀ sig, (F.S.encodedSignatureTryFrom (D.encodeSignature sig)).bind
    F.S.signatureDecode = some sig

/-- The text of a bundle is read back. -/
def Reads (certB64 vkB64 kyberEnc fp : String) : Prop :=
  F.J.fromStr (F.J.display (bundle certB64 vkB64 kyberEnc fp)) =
    .ok (bundle certB64 vkB64 kyberEnc fp)

section

variable {F D} {me : Publisher} {pub : Publication}

theorem signForTransport_ok {data sig : String} (signed : signForTransport F D me data = .ok sig) :
    ∃ sk, sig = signData F D data sk := by
  simp only [signForTransport] at signed
  split at signed
  · cases signed
  · cases signed
  · split at signed
    · cases signed
    · rename_i sk loaded
      cases signed
      exact ⟨sk, rfl⟩

/-- What a publication is made of. -/
theorem publication_ok (made : publication F D me = .ok pub) :
    ∃ armored vk sk, me.armored = .ok armored ∧
      pub.fp = fingerprintFromVerifyingKey F.S vk ∧
      pub.vkB64 = F.S.base64Encode (F.S.verifyingKeyToBytes vk) ∧
      pub.value = F.R.base64Encode (asBytes (F.J.display
        (bundle (F.R.base64Encode (asBytes armored)) pub.vkB64 pub.kyberEnc pub.fp))) ∧
      pub.sig = signData F D (certSignData (certBlobKey F pub.fp) pub.value pub.fp) sk := by
  simp only [publication] at made
  split at made
  · cases made
  · rename_i armored read
    split at made
    · cases made
    · split at made
      · cases made
      · rename_i sk loaded
        split at made
        · cases made
        · rename_i kyberEnc stored
          split at made
          · cases made
          · rename_i sig signed
            obtain ⟨signer, written⟩ := signForTransport_ok signed
            cases made
            exact ⟨armored, D.verifyingKey sk, signer, read, rfl, rfl, rfl, written⟩

theorem decoded_signData (laws : Laws F D) (data : String) (sk : D.SigningKey) :
    decoded (P := F.S) (signData F D data sk) = some (D.sign sk (asBytes data)) := by
  rw [decoded, signData, laws.keyBase64, Option.bind_some, laws.signature]

/-- The gate of a bootstrap passes the request under either key. -/
theorem blobPutUnder_verified (laws : Laws F D) (made : publication F D me = .ok pub)
    (fingerprint data : String) (cache : KeyCache F.S) (clock : Nat) :
    (verifyDhtPutSignature cache data pub.sig pub.fp (blobPutUnder F pub fingerprint)
      clock).1 = true := by
  obtain ⟨armored, vk, sk, -, fp, vkB64, -, sig⟩ := publication_ok made
  have decodes : (F.S.base64Decode pub.vkB64).bind F.S.verifyingKeyNewFromSlice = some vk := by
    rw [vkB64, laws.keyBase64, Option.bind_some, laws.key]
  have carried : publisherKey cache pub.fp (blobPutUnder F pub fingerprint) = some vk :=
    publisherKey_of_carried rfl decodes fp
  refine verifyDhtPutSignature_iff.mpr ⟨vk, carried, ?_⟩
  -- the signature decodes, and its verdict over the text is not looked at
  rw [verifySignatureWithVerifyingKey_iff, sig, decoded_signData laws]
  rfl

theorem certBlobKey_ne_empty (fp : String) : certBlobKey F fp ≠ "" := by
  intro empty
  have chars := congrArg String.toList empty
  simp [certBlobKey] at chars

/-- The row of a published bundle. -/
def publishedRow (pub : Publication) (salt : UInt32) (now : ℚ) (secs : Int64) : KvRow :=
  ⟨pub.value, s!"blob:{salt}", secs, pub.fp, now, expires now addrTtl, pub.sig⟩

/-- A bootstrap whose database works stores the bundle under either key. -/
theorem step_blobPutUnder (laws : Laws F D) (made : publication F D me = .ok pub)
    (small : pub.value.utf8ByteSize ≤ maxValueSize) (argon2id : Argon2id) (s : Server F.S)
    (fingerprint : String) (salt : UInt32) (seqMs secs : Int64) (now : ℚ) (clock : Nat) :
    (step argon2id s (.blobPut (blobPutUnder F pub fingerprint) salt seqMs now secs true
        clock)).1 = some (.found (certBlobKey F fingerprint) pub.value s!"blob:{salt}" seqMs) ∧
      (step argon2id s (.blobPut (blobPutUnder F pub fingerprint) salt seqMs now secs true
        clock)).2.db =
          s.db.replaceRow (certBlobKey F fingerprint) (publishedRow pub salt now secs) := by
  have stores : storeBlob s.db (blobPutUnder F pub fingerprint) salt now secs =
      (true, s.db.replaceRow (certBlobKey F fingerprint) (publishedRow pub salt now secs)) :=
    if_neg (not_lt.mpr small)
  have found : (handleBlobPut s.state.cache (blobPutUnder F pub fingerprint)
      ⟨salt, seqMs, some true⟩ clock).1 =
        .found (certBlobKey F fingerprint) pub.value s!"blob:{salt}" seqMs :=
    handleBlobPut_of_verified rfl (certBlobKey_ne_empty fingerprint) rfl small
      (fun _ => blobPutUnder_verified laws made fingerprint _ _ clock) rfl
  constructor
  · simp only [step, stores, if_true]
    rw [found]
  · simp only [step, stores, if_true]
    rw [found]
    rfl

theorem openBundle_bundle (laws : Laws F D) {armored vkB64 kyberEnc fp : String}
    (reads : Reads F (F.R.base64Encode (asBytes armored)) vkB64 kyberEnc fp) :
    openBundle F (F.R.base64Encode (asBytes (F.J.display
      (bundle (F.R.base64Encode (asBytes armored)) vkB64 kyberEnc fp)))) =
        .ok ⟨armored, vkB64, kyberEnc⟩ := by
  have cert : ((((bundle (F.R.base64Encode (asBytes armored)) vkB64 kyberEnc fp).get
      "cert").bind Json.asStr).getD "") = F.R.base64Encode (asBytes armored) := rfl
  rw [Reads] at reads
  simp only [openBundle, laws.base64, fromUtf8_asBytes, Option.map_some, reads, cert]
  rfl

/-- What stands in a row that has not expired is what a reader opens. -/
theorem dhtFetchCert_of_row {fingerprint : String} {db : Db} {now : ℚ} {row : KvRow}
    (stored : db.kvStore.lookup (certBlobKey F fingerprint) = some row)
    (live : now < row.expiresAt) :
    dhtFetchCert F (reader db now) fingerprint = openBundle F row.value := by
  have asked : ((Presence.blobGet (certBlobKey F fingerprint)).payloadStr "key").filter (· != "") =
      some (certBlobKey F fingerprint) := by
    rw [Presence.blobGet_key, Option.filter_some,
      if_pos (bne_iff_ne.mpr (certBlobKey_ne_empty fingerprint))]
  have got : db.get (certBlobKey F fingerprint) now = some row := by
    rw [Db.get, stored, Option.filter_some, if_pos (decide_eq_true live)]
  simp only [dhtFetchCert, reader, handleBlobGet, asked, got]
  rfl

end

/-- Both puts of a publication are accepted by any bootstrap whose database works, in any
state of it, and until they expire the bundle is fetched under either fingerprint. -/
theorem published_cert_is_fetched (laws : Laws F D) (me : Publisher) (pub : Publication)
    (gpgFp armored : String) (made : publication F D me = .ok pub)
    (cert : me.armored = .ok armored)
    (reads : Reads F (F.R.base64Encode (asBytes armored)) pub.vkB64 pub.kyberEnc pub.fp)
    (small : pub.value.utf8ByteSize ≤ maxValueSize)
    (argon2id : Argon2id) (s : Server F.S) (salt saltGpg : UInt32) (seqMs seqMs' secs secs' : Int64)
    (now now' later : ℚ) (clock clock' : Nat) (live : later < expires now addrTtl)
    (live' : later < expires now' addrTtl) :
    let first := StoreBounds.step argon2id s
      (.blobPut (reqPq F pub) salt seqMs now secs true clock)
    let second := StoreBounds.step argon2id first.2
      (.blobPut (reqGpg F pub gpgFp) saltGpg seqMs' now' secs' true clock')
    first.1 = some (.found (certBlobKey F pub.fp) pub.value s!"blob:{salt}" seqMs) ∧
      second.1 = some (.found (certBlobKey F gpgFp) pub.value s!"blob:{saltGpg}" seqMs') ∧
      dhtFetchCert F (reader second.2.db later) pub.fp =
        .ok ⟨armored, pub.vkB64, pub.kyberEnc⟩ ∧
      dhtFetchCert F (reader second.2.db later) gpgFp =
        .ok ⟨armored, pub.vkB64, pub.kyberEnc⟩ := by
  intro first second
  have putPq := step_blobPutUnder laws made small argon2id s pub.fp salt seqMs secs now clock
  have putGpg := step_blobPutUnder laws made small argon2id first.2 gpgFp saltGpg seqMs' secs' now'
    clock'
  have db : first.2.db = s.db.replaceRow (certBlobKey F pub.fp) (publishedRow pub salt now secs) :=
    putPq.2
  have db' : second.2.db =
      first.2.db.replaceRow (certBlobKey F gpgFp) (publishedRow pub saltGpg now' secs') := putGpg.2
  obtain ⟨text, vk, sk, read, fp, vkB64, value, sig⟩ := publication_ok made
  have same : text = armored := Except.ok.inj (read.symm.trans cert)
  subst same
  have opens : openBundle F pub.value = .ok ⟨text, pub.vkB64, pub.kyberEnc⟩ := by
    rw [value, openBundle_bundle laws reads]
  have byGpg : second.2.db.kvStore.lookup (certBlobKey F gpgFp) =
      some (publishedRow pub saltGpg now' secs') := by
    rw [db']
    exact AList.lookup_insert _
  refine ⟨putPq.1, putGpg.1, ?_, (dhtFetchCert_of_row byGpg live').trans opens⟩
  by_cases keys : certBlobKey F pub.fp = certBlobKey F gpgFp
  · exact (dhtFetchCert_of_row (keys ▸ byGpg) live').trans opens
  · have byPq : second.2.db.kvStore.lookup (certBlobKey F pub.fp) =
        some (publishedRow pub salt now secs) := by
      rw [db', DhtStore.Db.replaceRow, AList.lookup_insert_ne keys, db]
      exact AList.lookup_insert _
    exact (dhtFetchCert_of_row byPq live).trans opens

section

variable {F D} {me : Publisher} {pub : Publication}

/-- The one signature is over the text of the first put: if signatures are bound to what is
signed, it is not one over the text of the second, and ML-DSA would refuse it. -/
theorem reqGpg_not_genuine (laws : Laws F D) (made : publication F D me = .ok pub)
    {vk : F.S.VerifyingKey} {gpgFp : String}
    (bound : ∀ sk data text, F.S.verifies vk (asBytes text) (D.sign sk (asBytes data)) = true →
      text = data)
    (apart : certSignData (certBlobKey F gpgFp) pub.value pub.fp ≠
      certSignData (certBlobKey F pub.fp) pub.value pub.fp) :
    ¬ Genuine vk (certSignData (certBlobKey F gpgFp) pub.value pub.fp) pub.sig := by
  obtain ⟨text, own, sk, -, -, -, -, sig⟩ := publication_ok made
  rintro ⟨signature, found, valid⟩
  rw [sig, decoded_signData laws] at found
  cases found
  exact apart (bound sk _ _ valid)

end

/-- A signing key is the verifying key, and signs with the sum. -/
def sumSigning : MlDsa sumScheme where
  SigningKey := UInt8
  newFromSlice bytes := if bytes.length = 1 then .ok (bytes.headD 0) else .error "invalid length"
  verifyingKey := id
  sign key data := data.foldl (fun a b : UInt8 => a + b) key
  encodeSignature sig := [sig]

def certBundle : Json :=
  bundle (Ratchet.latin1Encode (asBytes "cert")) (sumScheme.base64Encode [65]) "B"
    (fingerprintFromVerifyingKey sumScheme (65 : UInt8))

/-- The bundle of the certificate can be read back. -/
def reading : Platform := smallPlatform [certBundle]

def alice : Publisher where
  signingKey := some "A"
  transportKey := .ok (some "A")
  armored := .ok "cert"
  gpgFp := .ok "AABBCCDDEEFF00112233445566778899AABBCCDD"
  kyberEnc := .ok "B"

theorem sumSigning_laws : Laws reading sumSigning where
  keyBase64 := sumScheme_base64
  base64 := Ratchet.latin1Decode_encode
  key _ := rfl
  signature _ := rfl

def aliceValue : String := Ratchet.latin1Encode (asBytes (compact certBundle))

def aliceFp : String := fingerprintFromVerifyingKey sumScheme (65 : UInt8)

def alicePublication : Publication where
  fp := aliceFp
  vkB64 := sumScheme.base64Encode [65]
  kyberEnc := "B"
  value := aliceValue
  sig := signData reading sumSigning
    (certSignData (certBlobKey reading aliceFp) aliceValue aliceFp) (65 : UInt8)

theorem publication_alice : publication reading sumSigning alice = .ok alicePublication := by
  have loaded : ∀ text, loadSigningKey reading sumSigning text "A" = .ok (65 : UInt8) :=
    fun _ => rfl
  simp only [publication, alice, loaded, signForTransport]
  rfl

theorem expires_addrTtl : expires 0 addrTtl = 7200 := by
  have seconds : addrTtl.toInt = (7200 : ℕ) := by decide
  rw [expires, seconds, Int.cast_natCast, Doubles.nearest_natCast (by norm_num), zero_add,
    Doubles.nearest_natCast (by norm_num)]
  norm_num

/-- Alice's bundle is fetched from a fresh bootstrap. -/
theorem published_cert_is_fetched_alice :
    ∃ db, dhtFetchCert reading (reader db 1) aliceFp =
        .ok ⟨"cert", sumScheme.base64Encode [65], "B"⟩ ∧
      dhtFetchCert reading (reader db 1) "AABBCCDDEEFF00112233445566778899AABBCCDD" =
        .ok ⟨"cert", sumScheme.base64Encode [65], "B"⟩ := by
  have soon : (1 : ℚ) < expires 0 addrTtl := by
    rw [expires_addrTtl]
    norm_num
  have fetched := published_cert_is_fetched reading sumSigning sumSigning_laws alice
    alicePublication "AABBCCDDEEFF00112233445566778899AABBCCDD" "cert" publication_alice rfl
    (knownJson_fromStr certBundle []) (by decide +kernel) (fun _ _ => .error "memory")
    (StoreBounds.start sumScheme) 1 2 0 0 0 0 0 0 1 0 0 soon soon
  exact ⟨_, fetched.2.2⟩

end CertPublish
