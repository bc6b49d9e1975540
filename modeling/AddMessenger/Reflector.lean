import AddMessenger.CertPublish
import AddMessenger.PeerConnection

/-!
# The reflector bot

`bot/src/main.rs`: the bot publishes a bundle of its keys and its address at the
bootstraps, and answers the hello of a client. Its fingerprint is that of an OpenPGP key
it does not have; both frames are signed with a key from a seed on its disk.

The proof of work, the bot's ML-KEM keys and the random texts are arguments.
-/

namespace Reflector

open ByteStrings CertPublish ClientSessions Contacts DhtNode PeerConnection PeerHandshake Protocol
  Signatures

abbrev Seed := {b : Bytes // b.length = 32}

/-- The seeds of the `ml-dsa` crate. -/
structure Seeds {S : Signatures.Primitives} (D : MlDsa S) where
  fromSeed : Seed → D.SigningKey
  toSeed : D.SigningKey → Seed

variable (F : Platform) (D : MlDsa F.S) (G : Seeds D)

/-- The characters with the property `White_Space`. -/
def isWhitespace (c : Char) : Bool :=
  (9 ≤ c.toNat && c.toNat ≤ 13) || (0x2000 ≤ c.toNat && c.toNat ≤ 0x200a) ||
    [0x20, 0x85, 0xa0, 0x1680, 0x2028, 0x2029, 0x202f, 0x205f, 0x3000].contains c.toNat

def trim (text : String) : String :=
  String.ofList
    ((text.toList.dropWhile isWhitespace).reverse.dropWhile isWhitespace).reverse

/-- What is found at the path of the seed. -/
inductive SeedFile where
  | missing
  | unreadable (error : String)
  | content (text : String)

def vkB64 (sk : D.SigningKey) : String :=
  F.S.base64Encode (F.S.verifyingKeyToBytes (D.verifyingKey sk))

/-- A file that holds no 64 characters is replaced by the seed of a fresh key. -/
def loadReflectorSigningKey (file : SeedFile) (fresh : D.SigningKey) :
    Except String (Seed × String) :=
  match file with
  | .missing => .ok (G.toSeed fresh, vkB64 F D fresh)
  | .unreadable error => .error ("seed read: " ++ error)
  | .content text =>
    if (trim text).utf8ByteSize = 64 then
      match hexDecode (trim text) with
      | none => .error "invalid hex"
      | some bytes =>
        if sized : bytes.length = 32 then
          let sk := G.fromSeed ⟨bytes, sized⟩
          .ok (G.toSeed sk, vkB64 F D sk)
        else .error "invalid seed length"
    else .ok (G.toSeed fresh, vkB64 F D fresh)

/-- What a publication does not take from the seed. -/
structure Service where
  listenAddress : String
  kyberEnc : String
  powNonce : Int64

def serviceBundle (service : Service) (vkB64 : String) : Json :=
  .object [("address", .string service.listenAddress), ("cert", .string ""),
    ("fp", .string reflectorFingerprint), ("kyber_enc", .string service.kyberEnc),
    ("vk", .string vkB64)]

def serviceValue (service : Service) (vkB64 : String) : String :=
  F.R.base64Encode (asBytes (F.J.display (serviceBundle service vkB64)))

/-- The request `publish_service_bundle` sends to a bootstrap. -/
def blobPut (service : Service) (keys : Seed × String) : WireEnvelope :=
  let (seed, vkB64) := keys
  let key := certBlobKey F reflectorFingerprint
  let value := serviceValue F service vkB64
  let sig := signData F D (certSignData key value reflectorFingerprint) (G.fromSeed seed)
  { msgType := "blob-put"
    payload := .object [("key", .string key), ("kyber_enc", .string service.kyberEnc),
      ("nonce", .number (BlobStore.seqNumber service.powNonce)),
      ("publisher_fp", .string reflectorFingerprint), ("publisher_verifying_key", .string vkB64),
      ("sig", .string sig), ("ttl", .number (.posInt 7200)), ("value", .string value),
      ("vk", .string vkB64)]
    sig := sig }

/-- What an answer does not take from the seed: the key of this connection and the random
texts, and the clock as the bits of a double. -/
structure Greeting where
  kyberEnc : String
  serverChallenge : String
  msgId : String
  ts : UInt64

/-- The payload as it is when it is signed. -/
def signedPayload (g : Greeting) : Json :=
  .object [("braid", .bool false), ("kyber_enc_key", .string g.kyberEnc),
    ("nonce", .number (.posInt 1)), ("pow_bits", .number (.posInt 16)),
    ("public_key", .string reflectorFingerprint), ("server_challenge", .string g.serverChallenge)]

/-- The payload that is sent. -/
def sentPayload (g : Greeting) (vkB64 : String) : Json :=
  .object [("braid", .bool false), ("kyber_enc_key", .string g.kyberEnc),
    ("nonce", .number (.posInt 1)), ("pow_bits", .number (.posInt 16)),
    ("public_key", .string reflectorFingerprint), ("sender_verifying_key", .string vkB64),
    ("server_challenge", .string g.serverChallenge)]

def ackSig (g : Greeting) (seed : Seed) : String :=
  signData F D (helloAckSigData F.J (signedPayload g)) (G.fromSeed seed)

/-- The answer of `handle_connection` to a hello. -/
def helloAck (g : Greeting) (keys : Seed × String) : Json :=
  wireFrame "p2p-hello-ack" g.msgId g.ts (sentPayload g keys.2) (ackSig F D G g keys.1)

/-- What the crates are documented to do: encodings are undone, a key is that of its seed, a
signature is not empty and base64 writes four characters for three bytes. -/
structure ReflectorLaws : Prop extends Laws F D where
  seeds : ∀ sk, G.fromSeed (G.toSeed sk) = sk
  written : ∀ sig, F.S.base64Encode (D.encodeSignature sig) ≠ ""
  groups : ∀ b, (F.S.base64Encode b).length ≤ 4 * ((b.length + 2) / 3)

/-- The bot speaks the protocol: a bootstrap that can store its bundle does, and a client
that has a key for it accepts its answer. -/
structure Speaks (service : Service) (g : Greeting) (keys : Seed × String) : Prop where
  stored : ∀ (cache : KeyCache F.S) answers now, answers.put = some true →
    (handleBlobPut cache (blobPut F D G service keys) answers now).1.isFound = true
  accepted : ∀ (cache : KeyCache F.S) clock,
    (ackKey cache (sentPayload g keys.2) clock).isSome = true →
      (receiveHelloAck F.J cache (F.J.display (helloAck F D G g keys)) clock).1 =
        .ok reflectorFingerprint

section

variable {F D G} {file : SeedFile} {fresh : D.SigningKey} {keys : Seed × String}

/-- Whatever is on the disk, the two parts of the key belong together. -/
theorem loaded_key (laws : ReflectorLaws F D G)
    (loaded : loadReflectorSigningKey F D G file fresh = .ok keys) :
    ∃ sk, G.fromSeed keys.1 = sk ∧ keys.2 = vkB64 F D sk := by
  have belongs : ∀ sk, Except.ok (G.toSeed sk, vkB64 F D sk) = (.ok keys : Except String _) →
      ∃ sk, G.fromSeed keys.1 = sk ∧ keys.2 = vkB64 F D sk := by
    intro sk same
    cases same
    exact ⟨sk, laws.seeds sk, rfl⟩
  cases file with
  | missing => exact belongs fresh loaded
  | unreadable error => cases loaded
  | content text =>
    simp only [loadReflectorSigningKey] at loaded
    split at loaded
    · split at loaded
      · cases loaded
      · split at loaded
        · exact belongs _ loaded
        · cases loaded
    · exact belongs fresh loaded

theorem startsWith_certBlobKey (fp : String) : startsWith (certBlobKey F fp) "cert:" = true := by
  rw [startsWith, certBlobKey, String.toList_append]
  exact List.isPrefixOf_iff_prefix.mpr (List.prefix_append _ _)

/-- The gate compares the fingerprint of the key with the one the bot claims. -/
theorem gate_iff (laws : ReflectorLaws F D G) {sk : D.SigningKey} (key : keys.2 = vkB64 F D sk)
    (service : Service) (cache : KeyCache F.S) (data : String) (now : Nat) :
    (verifyDhtPutSignature cache data (blobPut F D G service keys).sig reflectorFingerprint
        (blobPut F D G service keys) now).1 = true ↔
      constantTimeCompare F.S (fingerprintFromVerifyingKey F.S (D.verifyingKey sk))
        reflectorFingerprint = true := by
  have carries : (blobPut F D G service keys).payloadStr "publisher_verifying_key" = some keys.2 :=
    rfl
  have asserts : (blobPut F D G service keys).payloadStr "pq_publisher_fp" = none := rfl
  have signed : (decoded (P := F.S) (blobPut F D G service keys).sig).isSome = true := by
    have same := decoded_signData laws.toLaws (certSignData (certBlobKey F reflectorFingerprint)
      (serviceValue F service keys.2) reflectorFingerprint) (G.fromSeed keys.1)
    exact Option.isSome_of_eq_some same
  simp only [verifyDhtPutSignature_iff, publisherKey, carries, asserts, Option.getD_none, key,
    vkB64, laws.keyBase64, Option.bind_some, laws.key, verifySignatureWithVerifyingKey_iff, signed,
    and_true, Option.filter_some]
  split
  · rename_i equal
    simp [equal]
  · rename_i differ
    simpa using differ

/-- A bootstrap stores the bundle exactly if it fits and the fingerprints compare equal. -/
theorem stored_iff (laws : ReflectorLaws F D G) {sk : D.SigningKey} (key : keys.2 = vkB64 F D sk)
    (service : Service) (cache : KeyCache F.S) {answers : BlobAnswers}
    (put : answers.put = some true) (now : Nat) :
    (handleBlobPut cache (blobPut F D G service keys) answers now).1.isFound = true ↔
      (serviceValue F service keys.2).utf8ByteSize ≤ maxValueSize ∧
        constantTimeCompare F.S (fingerprintFromVerifyingKey F.S (D.verifyingKey sk))
          reflectorFingerprint = true := by
  have gate := gate_iff laws key service cache
    (certSignData (certBlobKey F reflectorFingerprint) (serviceValue F service keys.2)
      reflectorFingerprint) now
  constructor
  · intro found
    obtain ⟨name, value, named, given, verified⟩ := handleBlobPut_found found
    cases named
    cases given
    refine ⟨?_, gate.mp (verified (startsWith_certBlobKey _))⟩
    cases reply : (handleBlobPut cache (blobPut F D G service keys) answers now).1 with
    | error name message =>
      rw [reply] at found
      cases found
    | found name value salt seq =>
      obtain ⟨-, given, small, -⟩ := handleBlobPut_eq_found reply
      cases given
      exact small
  · rintro ⟨small, equal⟩
    have found : (handleBlobPut cache (blobPut F D G service keys) answers now).1 = _ :=
      handleBlobPut_of_verified rfl (certBlobKey_ne_empty _) rfl small (fun _ => gate.mpr equal) put
    rw [found]
    rfl

theorem reflectorFingerprint_valid : validateFingerprint reflectorFingerprint = true := by
  decide

/-- A client with a key for the bot accepts its answer: it does not look at the verdict. -/
theorem ack_accepted (laws : ReflectorLaws F D G) {g : Greeting}
    (reads : F.J.fromStr (F.J.display (helloAck F D G g keys)) = .ok (helloAck F D G g keys))
    {cache : KeyCache F.S} {clock : Nat → Nat}
    (known : (ackKey (P := F.S) cache (sentPayload g keys.2) clock).isSome = true) :
    (receiveHelloAck F.J cache (F.J.display (helloAck F D G g keys)) clock).1 =
      .ok reflectorFingerprint := by
  refine receiveHelloAck_iff.mpr ⟨_, reads, ?_, rfl⟩
  have sig : frameSig (helloAck F D G g keys) = ackSig F D G g keys.1 := rfl
  refine ⟨rfl, ?_, reflectorFingerprint_valid, known, ?_⟩
  · rw [sig]
    exact laws.written _
  · rw [sig, ackSig, decoded_signData laws.toLaws]
    rfl

/-- The two fingerprints are never the same text: the one has at most twelve characters. -/
theorem fingerprint_ne (laws : ReflectorLaws F D G) (vk : F.S.VerifyingKey) :
    fingerprintFromVerifyingKey F.S vk ≠ reflectorFingerprint := by
  intro same
  have eight : ((F.S.sha256 (F.S.verifyingKeyToBytes vk)).val.take 8).length = 8 := by
    rw [List.length_take, (F.S.sha256 (F.S.verifyingKeyToBytes vk)).property]
    rfl
  have short := laws.groups ((F.S.sha256 (F.S.verifyingKeyToBytes vk)).val.take 8)
  rw [eight] at short
  rw [fingerprintFromVerifyingKey] at same
  rw [same] at short
  exact absurd short (by decide)

/-- The signature of the answer is one of the payload without the key. -/
theorem ack_genuine_iff (laws : ReflectorLaws F D G) {sk : D.SigningKey}
    (seed : G.fromSeed keys.1 = sk) (g : Greeting) (vk : F.S.VerifyingKey) (text : String) :
    Genuine vk text (frameSig (helloAck F D G g keys)) ↔
      F.S.verifies vk (asBytes text)
        (D.sign sk (asBytes (helloAckSigData F.J (signedPayload g)))) = true := by
  have sig : frameSig (helloAck F D G g keys) = ackSig F D G g keys.1 := rfl
  rw [sig, Genuine, ackSig, decoded_signData laws.toLaws, seed]
  simp

end

variable {F D G} in
/-- The bot speaks the protocol exactly if the bundle fits and two different texts have the
same digest: the fingerprint of its key and the one it claims. Its answer is accepted, but
what is signed is not what is sent. -/
theorem reflector_speaks_iff (laws : ReflectorLaws F D G) (file : SeedFile) (fresh : D.SigningKey)
    {keys : Seed × String} (loaded : loadReflectorSigningKey F D G file fresh = .ok keys)
    (service : Service) (g : Greeting)
    (reads : F.J.fromStr (F.J.display (helloAck F D G g keys)) = .ok (helloAck F D G g keys)) :
    ∃ sk, keys.2 = vkB64 F D sk ∧
      (Speaks F D G service g keys ↔
        (serviceValue F service keys.2).utf8ByteSize ≤ maxValueSize ∧
          constantTimeCompare F.S (fingerprintFromVerifyingKey F.S (D.verifyingKey sk))
            reflectorFingerprint = true) ∧
      fingerprintFromVerifyingKey F.S (D.verifyingKey sk) ≠ reflectorFingerprint ∧
      (Genuine (D.verifyingKey sk) (helloAckSigData F.J (sentPayload g keys.2))
          (frameSig (helloAck F D G g keys)) ↔
        F.S.verifies (D.verifyingKey sk)
          (asBytes (helloAckSigData F.J (sentPayload g keys.2)))
          (D.sign sk (asBytes (helloAckSigData F.J (signedPayload g)))) = true) := by
  obtain ⟨sk, seed, key⟩ := loaded_key laws loaded
  refine ⟨sk, key, ?_, fingerprint_ne laws _, ack_genuine_iff laws seed g _ _⟩
  constructor
  · intro speaks
    have found := speaks.stored ∅ ⟨0, 0, some true⟩ 0 rfl
    exact (stored_iff laws key service ∅ rfl 0).mp found
  · intro fits
    exact ⟨fun cache answers now put => (stored_iff laws key service cache put now).mpr fits,
      fun cache clock known => ack_accepted laws reads known⟩

/-- The first byte of a seed is the key. -/
def firstByte : Seeds sumSigning where
  fromSeed seed := seed.val.headD 0
  toSeed sk := ⟨List.replicate 32 sk, List.length_replicate⟩

def botFile : SeedFile := .content (hexEncode (List.replicate 32 70) ++ "\n")

def botKeys : Seed × String := (⟨List.replicate 32 70, List.length_replicate⟩, "F")

def botService : Service := ⟨"ws://10.0.0.1:9000", "k", 1⟩

def botGreeting : Greeting := ⟨"k", "challenge", "1", 0⟩

def botAck : Json := helloAck (smallPlatform []) sumSigning firstByte botGreeting botKeys

/-- The answer of the bot can be read. -/
def botPlatform : Platform := smallPlatform [botAck]

theorem firstByte_laws : ReflectorLaws botPlatform sumSigning firstByte where
  keyBase64 := sumScheme_base64
  base64 := Ratchet.latin1Decode_encode
  key _ := rfl
  signature _ := rfl
  seeds _ := rfl
  written sig := by
    intro empty
    have chars := congrArg String.length empty
    exact absurd chars (by simp [botPlatform, smallPlatform, sumScheme, sumSigning])
  groups b := by
    have length : (sumScheme.base64Encode b).length = b.length := by
      simp [sumScheme]
    change (sumScheme.base64Encode b).length ≤ _
    omega

theorem botKeys_loaded :
    loadReflectorSigningKey botPlatform sumSigning firstByte botFile (0 : UInt8) = .ok botKeys := by
  rfl

theorem botAck_eq :
    helloAck botPlatform sumSigning firstByte botGreeting botKeys = botAck := by
  simp only [botAck, helloAck, ackSig]
  rfl

theorem known_read (value : Json) (rest : List Json) :
    (smallPlatform (value :: rest)).J.fromStr ((smallPlatform (value :: rest)).J.display value) =
      .ok value :=
  knownJson_fromStr value rest

theorem botAck_read :
    botPlatform.J.fromStr (botPlatform.J.display
      (helloAck botPlatform sumSigning firstByte botGreeting botKeys)) =
        .ok (helloAck botPlatform sumSigning firstByte botGreeting botKeys) := by
  rw [botAck_eq, botPlatform]
  exact known_read botAck []

theorem bot_compares_apart : constantTimeCompare sumScheme
    (fingerprintFromVerifyingKey sumScheme (70 : UInt8)) reflectorFingerprint = false := by
  decide +kernel

/-- The bundle of this bot is refused by a bootstrap that can store it. -/
theorem bundle_refused :
    loadReflectorSigningKey botPlatform sumSigning firstByte botFile (0 : UInt8) = .ok botKeys ∧
    ¬ Speaks botPlatform sumSigning firstByte botService botGreeting botKeys := by
  refine ⟨botKeys_loaded, fun speaks => ?_⟩
  have found := speaks.stored ∅ ⟨0, 0, some true⟩ 0 rfl
  have published : botKeys.2 = vkB64 botPlatform sumSigning (70 : UInt8) := rfl
  obtain ⟨-, equal⟩ := (stored_iff firstByte_laws published botService ∅ rfl 0).mp found
  exact absurd (bot_compares_apart.symm.trans equal) Bool.false_ne_true

theorem reflector_speaks_iff_bot :
    ∃ sk, botKeys.2 = vkB64 botPlatform sumSigning sk ∧
      (Speaks botPlatform sumSigning firstByte botService botGreeting botKeys ↔
        (serviceValue botPlatform botService botKeys.2).utf8ByteSize ≤ maxValueSize ∧
          constantTimeCompare botPlatform.S
            (fingerprintFromVerifyingKey botPlatform.S (sumSigning.verifyingKey sk))
            reflectorFingerprint = true) := by
  obtain ⟨sk, key, law, -⟩ := reflector_speaks_iff firstByte_laws botFile (0 : UInt8)
    botKeys_loaded botService botGreeting botAck_read
  exact ⟨sk, key, law⟩

end Reflector
