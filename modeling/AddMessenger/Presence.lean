import AddMessenger.Contacts
import AddMessenger.DhtNode
import AddMessenger.RatchetConversation

/-!
# Presence

`client/src/presence.rs`: a client seals its listener address for each of its contacts and
puts the blobs on all bootstraps; a contact asks the bootstraps for its blob, one after the
other. The key of a blob is a hash of two fingerprints: the publisher takes its own and the
one it has stored for the contact, the reader the one it has stored and its own.

A bootstrap is what it answers to an envelope: `none` without a connection, an answer or an
envelope in it.
-/

namespace Presence

open ByteStrings ClientSessions Contacts MessageStore PeerConnection PeerHandshake Protocol Ratchet
  RatchetConversation Signatures

variable (F : Platform)

abbrev Bootstrap := WireEnvelope → Option WireEnvelope

def presenceBlobKey (ownerFp contactFp : String) : String :=
  "presence:" ++ hexEncode (F.S.sha256 (asBytes (ownerFp ++ "||" ++ contactFp))).val

def dhtFetchCert (server : Server) (fingerprint : String) : Except String CertBundle :=
  server (certBlobKey F fingerprint)

def decodePeerKem (b64 : String) : Except String F.R.EncapsulationKey :=
  match F.R.base64Decode b64 with
  | .error e => .error ("peer kem decode: key persistence error: base64 decode: " ++ e)
  | .ok bytes =>
    match F.encKeyNewFromSlice bytes with
    | none => .error "peer kem decode: key persistence error: invalid enc key bytes"
    | some key => .ok key

/-- The first usable key among the servers, encapsulated to; a server without one leaves
its error. -/
def pairEncapsulate (peerFp : String) (coins : F.R.Coins) :
    List Server → String → Except String (String × Bytes)
  | [], lastErr => .error ("pair_encapsulate: " ++ lastErr)
  | server :: rest, _ =>
    match dhtFetchCert F server peerFp with
    | .error e => pairEncapsulate peerFp coins rest ("cert fetch: " ++ e)
    | .ok bundle =>
      if bundle.kyberEnc = "" then
        pairEncapsulate peerFp coins rest "peer cert has no kem enc key"
      else
        match decodePeerKem F bundle.kyberEnc with
        | .error e => pairEncapsulate peerFp coins rest e
        | .ok peerEnc =>
          .ok (hexEncode (F.R.encapsulate peerEnc coins).1.val,
            (F.R.encapsulate peerEnc coins).2.val)

def pairDecapsulate (ourKp : MlKem1024Keypair F.R) (ctHex : String) : Except String Bytes :=
  match hexDecode ctHex with
  | none => .error ("kem ct hex decode: " ++ F.hexError ctHex)
  | some ctBytes =>
    match ciphertextTryFrom ctBytes with
    | none => .error "kem ct parse: TryFromSliceError(())"
    | some ct => .ok (F.R.decapsulate ourKp.dec ct).val

def sealUnder (key : Bytes) (nonce : Nonce) (plaintext : Bytes) : Except String String :=
  match F.R.aesEncrypt key nonce.val plaintext with
  | none => .error "aes seal: aead::Error"
  | some ct => .ok (F.R.base64Encode (nonce.val ++ ct))

def openUnder (key : Bytes) (b64 : String) : Except String Bytes :=
  match F.R.base64Decode b64 with
  | .error e => .error ("b64 decode: " ++ e)
  | .ok raw =>
    if raw.length < nonceSize then .error "presence ciphertext too short"
    else
      match F.R.aesDecrypt key (raw.take nonceSize) (raw.drop nonceSize) with
      | none => .error "aes open: aead::Error"
      | some plain => .ok plain

/-- Two hours. -/
def addrTtl : UInt64 := 7200

structure Blob where
  key : String
  value : String
  sig : String

/-- What the blob for one contact is made with: the servers asked for its certificate and
the random draws. -/
structure Sealing where
  servers : List Server
  coins : F.R.Coins
  nonce : Nonce

/-- The blob for one contact, or the warning it is skipped with. -/
def presenceBlob (me : Account F) (address contactFp : String) (s : Sealing F) :
    Except String Blob :=
  match pairEncapsulate F contactFp s.coins s.servers "" with
  | .error e =>
    .error ("presence: skip contact " ++ String.ofList (contactFp.toList.take 8) ++ ": " ++ e)
  | .ok (kemCtHex, ss) =>
    let key := presenceBlobKey F me.identity.fingerprint contactFp
    match sealUnder F ss s.nonce (asBytes address) with
    | .error e => .error ("presence: seal failed: " ++ e)
    | .ok aesBlob =>
      let value := F.R.base64Encode (asBytes kemCtHex) ++ "." ++ aesBlob
      match me.sign (key ++ "|" ++ value) with
      | .error e => .error ("presence: sign failed: " ++ e)
      | .ok sig => .ok ⟨key, value, sig⟩

/-- The signature goes into the envelope. -/
def blobPut (publisherFp : String) (blob : Blob) : WireEnvelope where
  msgType := "blob-put"
  payload := .object [("key", .string blob.key), ("publisher_fp", .string publisherFp),
    ("ttl", .number (.posInt addrTtl)), ("value", .string blob.value)]
  sig := blob.sig

def isFound (resp : WireEnvelope) : Bool := resp.msgType == "dht-found"

/-- The blobs of all contacts; the draws are by null id. -/
def presenceBlobs (me : Account F) (contacts : ContactList) (sealings : String → Sealing F)
    (address : String) : List Blob :=
  contacts.entries.filterMap fun e => (presenceBlob F me address e.2 (sealings e.1)).toOption

/-- The blob of one contact, by its null id. -/
def blobFor (me : Account F) (contacts : ContactList) (sealings : String → Sealing F)
    (address nullId : String) : Option Blob :=
  (contacts.lookup nullId).bind fun contactFp =>
    (presenceBlob F me address contactFp (sealings nullId)).toOption

/-- The number of bootstraps that took the blob most of them took. -/
def publishPresence (me : Account F) (contacts : ContactList) (bootstraps : List Bootstrap)
    (sealings : String → Sealing F) (address : String) : Except String Nat :=
  if bootstraps.isEmpty then .error "no bootstrap servers discovered"
  else if contacts.entries.isEmpty then .ok bootstraps.length
  else
    .ok ((presenceBlobs F me contacts sealings address).foldl (fun best blob =>
      max best (bootstraps.countP fun server =>
        (server (blobPut me.identity.fingerprint blob)).any isFound)) 0)

def blobGet (key : String) : WireEnvelope where
  msgType := "blob-get"
  payload := .object [("key", .string key)]
  sig := ""

@[simp] theorem blobGet_key (key : String) : (blobGet key).payloadStr "key" = some key := rfl

/-- The answer of a bootstrap that has something under the key. -/
def answerTo (key : String) (server : Bootstrap) : Option WireEnvelope :=
  (server (blobGet key)).filter isFound

/-- The address in a value, `base64(kem_ct_hex) '.' base64(nonce || aes_ct)`. -/
def openSealed (ourKp : MlKem1024Keypair F.R) (sealed : String) : Option String :=
  match splitOnce '.' sealed.toList with
  | none => none
  | some (ctB64, aesB64) =>
    match (F.R.base64Decode (String.ofList ctB64)).toOption.bind fromUtf8 with
    | none => none
    | some kemCtHex =>
      match pairDecapsulate F ourKp kemCtHex with
      | .error _ => none
      | .ok ss =>
        match openUnder F ss (String.ofList aesB64) with
        | .error _ => none
        | .ok plain => fromUtf8 plain

def openPresence (ourKp : MlKem1024Keypair F.R) (resp : WireEnvelope) : Option String :=
  (resp.payloadStr "value").bind (openSealed F ourKp)

/-- The loop: the first answer decides, whether it can be opened or not. -/
def fetchFrom (ourKp : MlKem1024Keypair F.R) (key : String) : List Bootstrap → Option String
  | [] => none
  | server :: rest =>
    match answerTo key server with
    | some resp => openPresence F ourKp resp
    | none => fetchFrom ourKp key rest

def fetchPresence (me : Party F) (contactFp : String) (bootstraps : List Bootstrap) :
    Option String :=
  fetchFrom F me.kyber (presenceBlobKey F contactFp me.identity.fingerprint) bootstraps

variable {F}

theorem fetchFrom_eq {ourKp : MlKem1024Keypair F.R} {key : String} (bootstraps : List Bootstrap) :
    fetchFrom F ourKp key bootstraps =
      (bootstraps.findSome? (answerTo key)).bind (openPresence F ourKp) := by
  induction bootstraps with
  | nil => rfl
  | cons server rest ih =>
    rw [fetchFrom, List.findSome?_cons]
    cases answerTo key server with
    | none => exact ih
    | some resp => rfl

theorem presenceBlobKey_inj {owner contact owner' contact' : String} :
    presenceBlobKey F owner contact = presenceBlobKey F owner' contact' ↔
      F.S.sha256 (asBytes (owner ++ "||" ++ contact)) =
        F.S.sha256 (asBytes (owner' ++ "||" ++ contact')) := by
  rw [presenceBlobKey, presenceBlobKey, String.append_right_inj]
  exact sha256Hex_inj

theorem mem_presenceBlobs {me : Account F} {contacts : ContactList} {sealings : String → Sealing F}
    {address : String} {blob : Blob} :
    blob ∈ presenceBlobs F me contacts sealings address ↔
      ∃ nullId, blobFor F me contacts sealings address nullId = some blob := by
  simp only [presenceBlobs, blobFor, List.mem_filterMap, Option.bind_eq_some_iff]
  constructor
  · rintro ⟨⟨nullId, contactFp⟩, member, made⟩
    exact ⟨nullId, contactFp, AList.mem_lookup_iff.mpr member, made⟩
  · rintro ⟨nullId, contactFp, has, made⟩
    exact ⟨⟨nullId, contactFp⟩, AList.mem_lookup_iff.mp has, made⟩

/-- A count above zero speaks of a blob that was stored. -/
theorem publishPresence_stored {me : Account F} {contacts : ContactList}
    {bootstraps : List Bootstrap} {sealings : String → Sealing F} {address : String} {count : Nat}
    (published : publishPresence F me contacts bootstraps sealings address = .ok count)
    (nonempty : contacts.entries ≠ []) (counted : 0 < count) :
    ∃ nullId blob, blobFor F me contacts sealings address nullId = some blob ∧
      ∃ server ∈ bootstraps,
        (server (blobPut me.identity.fingerprint blob)).any isFound = true := by
  have counts : ∀ (blobs : List Blob) (best : Nat),
      best < blobs.foldl (fun best blob => max best (bootstraps.countP fun server =>
        (server (blobPut me.identity.fingerprint blob)).any isFound)) best →
      ∃ blob ∈ blobs, 0 < bootstraps.countP fun server =>
        (server (blobPut me.identity.fingerprint blob)).any isFound := by
    intro blobs
    induction blobs with
    | nil => intro best less; exact absurd less (lt_irrefl best)
    | cons blob rest ih =>
      intro best less
      by_cases took : 0 < bootstraps.countP fun server =>
          (server (blobPut me.identity.fingerprint blob)).any isFound
      · exact ⟨blob, List.mem_cons_self, took⟩
      · rw [List.foldl_cons, Nat.eq_zero_of_not_pos took, Nat.max_zero] at less
        obtain ⟨later, member, took⟩ := ih best less
        exact ⟨later, List.mem_cons_of_mem blob member, took⟩
  have filled : contacts.entries.isEmpty = false := List.isEmpty_eq_false_iff.mpr nonempty
  simp only [publishPresence, filled, Bool.false_eq_true, if_false] at published
  split_ifs at published
  cases published
  obtain ⟨blob, member, took⟩ := counts _ 0 counted
  obtain ⟨nullId, made⟩ := mem_presenceBlobs.mp member
  exact ⟨nullId, blob, made, List.countP_pos_iff.mp took⟩

/-- What a blob is, step by step. -/
theorem presenceBlob_ok_iff {me : Account F} {address contactFp : String} {s : Sealing F}
    {blob : Blob} :
    presenceBlob F me address contactFp s = .ok blob ↔
      ∃ kemCtHex ss aesBlob, pairEncapsulate F contactFp s.coins s.servers "" = .ok (kemCtHex, ss) ∧
        sealUnder F ss s.nonce (asBytes address) = .ok aesBlob ∧
        blob.key = presenceBlobKey F me.identity.fingerprint contactFp ∧
        blob.value = F.R.base64Encode (asBytes kemCtHex) ++ "." ++ aesBlob ∧
        me.sign (blob.key ++ "|" ++ blob.value) = .ok blob.sig := by
  constructor
  · intro made
    simp only [presenceBlob] at made
    split at made
    · cases made
    · rename_i kemCtHex ss encapsulated
      split at made
      · cases made
      · rename_i aesBlob sealed
        split at made
        · cases made
        · rename_i sig signed
          cases made
          exact ⟨kemCtHex, ss, aesBlob, encapsulated, sealed, rfl, rfl, signed⟩
  · obtain ⟨key, value, sig⟩ := blob
    rintro ⟨kemCtHex, ss, aesBlob, encapsulated, sealed, rfl, rfl, signed⟩
    simp only [presenceBlob, encapsulated, sealed, signed]

theorem presenceBlob_isOk {me : Account F} {address contactFp kemCtHex aesBlob : String}
    {ss : Bytes} {s : Sealing F}
    (encapsulated : pairEncapsulate F contactFp s.coins s.servers "" = .ok (kemCtHex, ss))
    (sealed : sealUnder F ss s.nonce (asBytes address) = .ok aesBlob)
    (signs : ∀ data, ∃ sig, me.sign data = .ok sig) :
    ∃ blob, presenceBlob F me address contactFp s = .ok blob := by
  obtain ⟨sig, signed⟩ := signs (presenceBlobKey F me.identity.fingerprint contactFp ++ "|" ++
    (F.R.base64Encode (asBytes kemCtHex) ++ "." ++ aesBlob))
  exact ⟨⟨_, _, sig⟩, presenceBlob_ok_iff.mpr ⟨_, _, _, encapsulated, sealed, rfl, rfl, signed⟩⟩

theorem openUnder_sealUnder (correct : Correct F.R) {key : Bytes} {nonce : Nonce} {plain : Bytes}
    {b64 : String} (sealed : sealUnder F key nonce plain = .ok b64) :
    openUnder F key b64 = .ok plain := by
  obtain ⟨ct, encrypts, decrypts⟩ := correct.aes key nonce.val plain
  simp only [sealUnder, encrypts] at sealed
  cases sealed
  have front : (nonce.val ++ ct).take nonceSize = nonce.val := List.take_left' nonce.property
  have back : (nonce.val ++ ct).drop nonceSize = ct := List.drop_left' nonce.property
  have long : ¬ (nonce.val ++ ct).length < nonceSize := by
    rw [List.length_append, nonce.property]
    omega
  simp only [openUnder, correct.base64, if_neg long, front, back, decrypts]

/-- A blob sealed to the reader's key opens to the address. -/
theorem openSealed_presenceBlob (correct : Correct F.R)
    (dotless : ∀ b, '.' ∉ (F.R.base64Encode (asBytes (hexEncode b))).toList)
    {ourKp : MlKem1024Keypair F.R} (undoes : Undoes ourKp.dec ourKp.enc) {me : Account F}
    {address contactFp : String} {s : Sealing F} {blob : Blob}
    (made : presenceBlob F me address contactFp s = .ok blob)
    (toReader : pairEncapsulate F contactFp s.coins s.servers "" =
      .ok (hexEncode (F.R.encapsulate ourKp.enc s.coins).1.val,
        (F.R.encapsulate ourKp.enc s.coins).2.val)) :
    openSealed F ourKp blob.value = some address := by
  obtain ⟨kemCtHex, ss, aesBlob, encapsulated, sealed, -, value, -⟩ := presenceBlob_ok_iff.mp made
  rw [toReader] at encapsulated
  cases encapsulated
  have parts : splitOnce '.' blob.value.toList = some ((F.R.base64Encode
      (asBytes (hexEncode (F.R.encapsulate ourKp.enc s.coins).1.val))).toList, aesBlob.toList) := by
    rw [value, String.toList_append, String.toList_append, List.append_assoc]
    exact splitOnce_append _ (dotless _)
  have secret : pairDecapsulate F ourKp (hexEncode (F.R.encapsulate ourKp.enc s.coins).1.val) =
      .ok (F.R.encapsulate ourKp.enc s.coins).2.val := by
    simp only [pairDecapsulate, hexDecode_hexEncode, ciphertextTryFrom]
    rw [dif_pos (F.R.encapsulate ourKp.enc s.coins).1.property]
    exact congrArg (fun ss : MlKem1024SharedSecret => Except.ok ss.val) (undoes s.coins)
  simp only [openSealed, parts, String.ofList_toList, correct.base64, Except.toOption,
    Option.bind_some, fromUtf8_asBytes, secret, openUnder_sealUnder correct sealed]

/-- A client with an OpenPGP fingerprint. -/
structure Member (F : Platform) extends Account F where
  openPgp : isHexOf 40 identity.fingerprint = true

/-- One of the bootstraps still has the blob. -/
def Held (blob : Blob) (bootstraps : List Bootstrap) : Prop :=
  ∃ server ∈ bootstraps, ∃ resp, answerTo blob.key server = some resp ∧
    resp.payloadStr "value" = some blob.value

/-- The publisher `a` and the reader `b` meet: one key for both, and the address is found
wherever the blob is held. -/
structure Rendezvous (a : Account F) (b : Party F) (atA : ContactList) (storedA storedB : String)
    (sealings : String → Sealing F) (address : String) (bootstraps : List Bootstrap) : Prop where
  sameKey : presenceBlobKey F a.identity.fingerprint storedB =
    presenceBlobKey F storedA b.identity.fingerprint
  reached : ∀ blob, blobFor F a atA sealings address b.identity.nullId = some blob →
    Held blob bootstraps → fetchPresence F b storedA bootstraps = some address

/-- The first bootstrap that has something under the reader's key has the address. -/
def FirstOpens (b : Party F) (storedA address : String) (bootstraps : List Bootstrap) : Prop :=
  ∀ resp, bootstraps.findSome? (answerTo (presenceBlobKey F storedA b.identity.fingerprint)) =
    some resp → openPresence F b.kyber resp = some address

/-- The publisher and the reader hash different texts. -/
theorem key_texts_differ (laws : TextLaws F.S) {own other storedA storedB : String}
    (openPgp : isHexOf 40 own = true) (isStored : Stored F.S storedA) :
    own ++ "||" ++ storedB ≠ storedA ++ "||" ++ other := by
  intro same
  refine crossed_texts_differ openPgp (isStored.other laws).1
    (x := "|" ++ storedB) (b := "|" ++ other) ?_
  have bars : ("||" : String) = "|" ++ "|" := rfl
  simpa only [bars, String.append_assoc] using same

theorem fetchPresence_of_held {b : Party F} {storedA address : String} {blob : Blob}
    {bootstraps : List Bootstrap}
    (key : blob.key = presenceBlobKey F storedA b.identity.fingerprint)
    (held : Held blob bootstraps) :
    fetchPresence F b storedA bootstraps = some address ↔
      FirstOpens b storedA address bootstraps := by
  obtain ⟨server, member, resp, answers, -⟩ := held
  have some_answers : (bootstraps.findSome?
      (answerTo (presenceBlobKey F storedA b.identity.fingerprint))).isSome = true := by
    rw [List.findSome?_isSome_iff]
    exact ⟨server, member, by rw [← key, answers]; rfl⟩
  obtain ⟨first, found⟩ := Option.isSome_iff_exists.mp some_answers
  rw [fetchPresence, fetchFrom_eq, found, Option.bind_some]
  constructor
  · intro opens resp same
    rw [found] at same
    cases same
    exact opens
  · intro opens
    exact opens first found

theorem blobFor_key {me : Account F} {contacts : ContactList} {sealings : String → Sealing F}
    {address nullId contactFp : String} {blob : Blob}
    (has : contacts.lookup nullId = some contactFp)
    (made : blobFor F me contacts sealings address nullId = some blob) :
    blob.key = presenceBlobKey F me.identity.fingerprint contactFp := by
  rw [blobFor, has, Option.bind_some] at made
  cases sealed : presenceBlob F me address contactFp (sealings nullId) with
  | error e =>
    rw [sealed] at made
    cases made
  | ok blob =>
    rw [sealed] at made
    cases made
    obtain ⟨-, -, -, -, -, key, -⟩ := presenceBlob_ok_iff.mp sealed
    exact key

/-- Two contacts meet exactly where two different texts have one digest and the first answer
for it opens to the address. -/
theorem rendezvous_iff (laws : TextLaws F.S) (a b : Member F)
    (requestsA requestsB : List AddRequest) (storedA storedB : String)
    (hasB : (added F requestsA).lookup b.identity.nullId = some storedB)
    (hasA : (added F requestsB).lookup a.identity.nullId = some storedA)
    (sealings : String → Sealing F) (address : String) (bootstraps : List Bootstrap) :
    a.identity.fingerprint ++ "||" ++ storedB ≠ storedA ++ "||" ++ b.identity.fingerprint ∧
      (Rendezvous a.toAccount b.toParty (added F requestsA) storedA storedB sealings address
          bootstraps ↔
        F.S.sha256 (asBytes (a.identity.fingerprint ++ "||" ++ storedB)) =
            F.S.sha256 (asBytes (storedA ++ "||" ++ b.identity.fingerprint)) ∧
          ∀ blob, blobFor F a.toAccount (added F requestsA) sealings address b.identity.nullId =
              some blob → Held blob bootstraps →
            FirstOpens b.toParty storedA address bootstraps) := by
  have isStoredA : Stored F.S storedA := added_stored requestsB _ (AList.mem_lookup_iff.mp hasA)
  refine ⟨key_texts_differ laws a.openPgp isStoredA, ?_⟩
  constructor
  · rintro ⟨sameKey, reached⟩
    refine ⟨presenceBlobKey_inj.mp sameKey, ?_⟩
    intro blob made held
    have key := (blobFor_key hasB made).trans sameKey
    exact (fetchPresence_of_held key held).mp (reached blob made held)
  · rintro ⟨sameDigest, opens⟩
    have sameKey := presenceBlobKey_inj.mpr sameDigest
    refine ⟨sameKey, ?_⟩
    intro blob made held
    have key := (blobFor_key hasB made).trans sameKey
    exact (fetchPresence_of_held key held).mpr (opens blob made held)

def memberOf (fp nullId : String) (key : UInt8) (openPgp : isHexOf 40 fp = true) :
    Member (smallPlatform []) where
  identity := ⟨fp, nullId⟩
  kyber := ⟨key, key⟩
  verifyingKeyB64 := ""
  sign data := .ok (sumSign key data)
  openPgp := openPgp

def alice : Member (smallPlatform []) := memberOf aliceFp "NN-a" 65 aliceFp_openPgp

def bob : Member (smallPlatform []) := memberOf bobFp "NN-b" 66 bobFp_openPgp

def sealing (_ : String) : Sealing (smallPlatform []) :=
  ⟨[serverOf "B"], (4 : UInt8), checksumNonce⟩

def foundReply (blob : Blob) : WireEnvelope :=
  ⟨"dht-found", .object [("key", .string blob.key), ("value", .string blob.value)], ""⟩

/-- A bootstrap that has one blob. -/
def holding (blob : Blob) : Bootstrap := fun env =>
  if env.payloadStr "key" = some blob.key then some (foundReply blob)
  else some ⟨"dht-error", .object [("message", .string "not found")], ""⟩

theorem held_holding (blob : Blob) : Held blob [holding blob] := by
  refine ⟨holding blob, List.mem_singleton_self _, foundReply blob, ?_, rfl⟩
  rw [answerTo, holding, if_pos (blobGet_key blob.key)]
  rfl

theorem added_bob : (added (smallPlatform []) addsBob).lookup bob.identity.nullId =
    some "BBBBBBBB" := by decide +kernel

theorem added_alice : (added (smallPlatform []) addsAlice).lookup alice.identity.nullId =
    some "AAAAAAAA" := by decide +kernel

theorem digests_differ :
    sumScheme.sha256 (asBytes (aliceFp ++ "||" ++ "BBBBBBBB")) ≠
      sumScheme.sha256 (asBytes ("AAAAAAAA" ++ "||" ++ bobFp)) := by decide +kernel

theorem alice_publishes :
    ∃ blob, blobFor (smallPlatform []) alice.toAccount (added (smallPlatform []) addsBob) sealing
      "ws://a" bob.identity.nullId = some blob := by
  obtain ⟨blob, made⟩ : ∃ blob, presenceBlob (smallPlatform []) alice.toAccount "ws://a" "BBBBBBBB"
      (sealing "NN-b") = .ok blob :=
    presenceBlob_isOk rfl rfl fun data => ⟨sumSign 65 data, rfl⟩
  refine ⟨blob, ?_⟩
  rw [blobFor, added_bob, Option.bind_some]
  exact congrArg Except.toOption made

/-- With the one bootstrap that has her blob. -/
theorem rendezvous_iff_alice :
    ∃ blob, blobFor (smallPlatform []) alice.toAccount (added (smallPlatform []) addsBob) sealing
        "ws://a" bob.identity.nullId = some blob ∧
      Held blob [holding blob] ∧
      ¬ Rendezvous alice.toAccount bob.toParty (added (smallPlatform []) addsBob) "AAAAAAAA"
        "BBBBBBBB" sealing "ws://a" [holding blob] := by
  obtain ⟨blob, published⟩ := alice_publishes
  refine ⟨blob, published, held_holding blob, fun meet => ?_⟩
  have exact_condition := (rendezvous_iff (F := smallPlatform []) sumScheme_laws alice bob addsBob
    addsAlice "AAAAAAAA" "BBBBBBBB" added_bob added_alice sealing "ws://a" [holding blob]).2
  exact digests_differ (exact_condition.mp meet).1

/-- Alice has published for Bob, the one bootstrap has her blob, and Bob does not find it. -/
theorem bob_finds_nothing :
    ∃ blob, blobFor (smallPlatform []) alice.toAccount (added (smallPlatform []) addsBob) sealing
        "ws://a" bob.identity.nullId = some blob ∧
      Held blob [holding blob] ∧
      fetchPresence (smallPlatform []) bob.toParty "AAAAAAAA" [holding blob] = none ∧
      ¬ Rendezvous alice.toAccount bob.toParty (added (smallPlatform []) addsBob) "AAAAAAAA"
        "BBBBBBBB" sealing "ws://a" [holding blob] := by
  obtain ⟨blob, published⟩ := alice_publishes
  have otherKey : presenceBlobKey (smallPlatform []) "AAAAAAAA" bobFp ≠ blob.key := by
    rw [blobFor_key added_bob published]
    exact fun same => digests_differ (presenceBlobKey_inj.mp same.symm)
  have nothing : fetchPresence (smallPlatform []) bob.toParty "AAAAAAAA" [holding blob] = none := by
    have asked : (blobGet (presenceBlobKey (smallPlatform []) "AAAAAAAA" bobFp)).payloadStr "key" ≠
        some blob.key := fun same => otherKey (Option.some.inj same)
    have missing : answerTo (presenceBlobKey (smallPlatform []) "AAAAAAAA" bobFp) (holding blob) =
        none := by
      rw [answerTo, holding, if_neg asked]
      rfl
    change fetchFrom (smallPlatform []) bob.kyber
      (presenceBlobKey (smallPlatform []) "AAAAAAAA" bobFp) [holding blob] = none
    simp only [fetchFrom, missing]
  refine ⟨blob, published, held_holding blob, nothing, ?_⟩
  intro meet
  have found := meet.reached blob published (held_holding blob)
  rw [nothing] at found
  cases found

end Presence
