import AddMessenger.MessageStore
import AddMessenger.Protocol

/-!
# The sessions of a client

The four places of `client/src/main.rs` that take a ratchet session from the store and
encrypt or decrypt with it: `send_message` and `handle_incoming_connection` once the
peer is authenticated, `send_via_relay` and `relay_decrypt_message`. Each is modelled
from the lookup of the session to the last line that touches it.

The answers of the network and of the database and the random draws are arguments. A
call reports, besides its result, what it did with a session.
-/

namespace ClientSessions

open ByteStrings MessageStore Protocol Ratchet

/-- The code outside the repository. `encKeyNewFromSlice` and `encKeyToBytes` are those of
an ML-KEM-1024 encapsulation key, `lossy` is `String::from_utf8_lossy`, `hexError` the
text of a failed `hex::decode`. -/
structure Platform where
  R : Ratchet.Primitives
  S : Signatures.Primitives
  J : SerdeJson
  encKeyToBytes : R.EncapsulationKey → Bytes
  encKeyNewFromSlice : Bytes → Option R.EncapsulationKey
  sha512 : Bytes → Bytes
  lossy : Bytes → String
  hexError : String → String

structure Identity where
  fingerprint : String
  nullId : String

/-- A client: its identity and its ML-KEM keys. -/
structure Party (F : Platform) where
  identity : Identity
  kyber : MlKem1024Keypair F.R

/-- What a call did with a session: the null id the session is kept under, the stored
session a sent message's keys were derived from, and the session after the message. -/
structure Use where
  nid : String
  source : Option RatchetState
  after : RatchetState

structure Outcome (α : Type) where
  result : Except String α
  used : Option Use

/-- The random draws of one message. -/
structure Draws (F : Platform) where
  initCoins : F.R.Coins
  coins : F.R.Coins
  nonce : Nonce
  padding : Nat → UInt8

/-- The `Display` of a `CryptoError`. -/
def errorText : CryptoError → String
  | .invalidFingerprint text => "invalid fingerprint: " ++ text
  | .encryptFailed text => "encryption failed: " ++ text
  | .decryptFailed text => "decryption failed: " ++ text
  | .serialization text => "serialization error: " ++ text
  | .ratchet text => "ratchet error: " ++ text
  | .keyPersistence text => "key persistence error: " ++ text
  | .pir text => "PIR error: " ++ text
  | .hardwareError text => "hardware/TPM error: " ++ text
  | .io text => "I/O error: " ++ text
  | .derivationFailed text => "key derivation failed: " ++ text

/-- `null_id` of `crypto/src/lib.rs`: two groups of eight digits. -/
def nullId (S : Signatures.Primitives) (fingerprint : String) : String :=
  let hex := (hexEncode (S.blake2b16 (asBytes fingerprint)).val).toList
  "NN-" ++ String.ofList (hex.take 8) ++ "-" ++ String.ofList ((hex.drop 8).take 8)

def fail {α : Type} (text : String) : Outcome α := ⟨.error text, none⟩

/-- The panic of `pad_message_bucket`. -/
def paddingPanic : String := "attempt to subtract with overflow"

variable (F : Platform)

/-- The session of a message to a peer, whether it comes from the store, and the
ciphertext that starts it if it is new. -/
structure SendSession where
  session : RatchetState
  stored : Bool
  kyberCt : Option MlKem1024Ciphertext

def directSession (identity : Identity) (recipientFp : String)
    (peerKyber : F.R.EncapsulationKey) (initCoins : F.R.Coins) (store : Store) :
    Except String SendSession :=
  let peerNid := nullId F.S recipientFp
  match loadSession F.S store peerNid with
  | some session => .ok ⟨session, true, none⟩
  | none =>
    let (initCt, initSharedSecret) := F.R.encapsulate peerKyber initCoins
    match new F.R recipientFp peerNid identity.fingerprint true initSharedSecret.val with
    | .error e => .error ("ratchet init: " ++ errorText e)
    | .ok session => .ok ⟨session, false, some initCt⟩

/-- Encryption of a first message or of a later one. -/
def encryptWith (s : SendSession) (padded : String) (kyber : F.R.EncapsulationKey)
    (draws : Draws F) : Except CryptoError Bytes × RatchetState :=
  match s.kyberCt with
  | some _ => encryptFirst F.R s.session padded draws.nonce
  | none => encryptMessage F.R s.session padded kyber draws.coins draws.nonce

def optionalField (name : String) : Option String → List (String × Json)
  | none => []
  | some text => [(name, .string text)]

/-- The payload `build_p2p_message` gives a message. -/
def p2pMessagePayload (ciphertextB64 msgHash : String) (initKyberCt ttl : Option String) : Json :=
  .object (("ciphertext", .string ciphertextB64) :: optionalField "init_kyber_ct" initKyberCt ++
    [("msg_hash", .string msgHash), ("seq", .number (.posInt 1))] ++ optionalField "ttl" ttl)

/-- A message on its way to a peer, with the text that was encrypted and its hash. -/
structure DirectMessage where
  padded : String
  encrypted : Bytes
  msgHash : String
  payload : Json

/-- `send_message` from the lookup of the session on. The session is saved before the
message is encrypted, and not again. -/
def sendDirect (identity : Identity) (recipientFp message : String) (ttl : Option String)
    (peerKyber : F.R.EncapsulationKey) (draws : Draws F) (written : Except String Unit)
    (store : Store) : Outcome DirectMessage × Store :=
  let peerNid := nullId F.S recipientFp
  match directSession F identity recipientFp peerKyber draws.initCoins store with
  | .error e => (fail e, store)
  | .ok start =>
    match written with
    | .error e => (fail ("ratchet save: " ++ e), store)
    | .ok () =>
      let store := saveSession F.S store peerNid start.session (.ok ())
      match padMessageBucket message draws.padding with
      | none => (fail paddingPanic, store)
      | some padded =>
        match encryptWith F start padded peerKyber draws with
        | (.error e, _) => (fail (errorText e), store)
        | (.ok encrypted, session) =>
          let msgHash := sha256Hex F.S encrypted
          let payload := p2pMessagePayload (F.R.base64Encode encrypted) msgHash
            (start.kyberCt.map fun ct => F.R.base64Encode ct.val) ttl
          (⟨.ok ⟨padded, encrypted, msgHash, payload⟩,
            some ⟨peerNid, some start.session, session⟩⟩, store)

def strField (payload : Json) (name : String) : Option String :=
  (payload.get name).bind Json.asStr

def messageSeq (payload : Json) : UInt64 := ((payload.get "seq").bind Json.asU64).getD 0

/-- The secret of a session that does not exist yet. -/
def initSharedSecret (ourKyber : MlKem1024Keypair F.R) (peerKyber : Option F.R.EncapsulationKey)
    (coins : F.R.Coins) (payload : Json) : Except String MlKem1024SharedSecret :=
  match strField payload "init_kyber_ct" with
  | some initCtB64 =>
    match F.R.base64Decode initCtB64 with
    | .error e => .error ("init_kyber_ct decode: " ++ e)
    | .ok ctBytes =>
      match ciphertextTryFrom ctBytes with
      | none => .error "init_kyber_ct parse: TryFromSliceError(())"
      | some ct => .ok (F.R.decapsulate ourKyber.dec ct)
  | none =>
    match peerKyber with
    | none => .error "no peer Kyber key"
    | some kyber => .ok (F.R.encapsulate kyber coins).2

def incomingSession (identity : Identity) (peerFp : String) (ourKyber : MlKem1024Keypair F.R)
    (peerKyber : Option F.R.EncapsulationKey) (coins : F.R.Coins) (payload : Json)
    (store : Store) : Except String RatchetState :=
  let peerNid := nullId F.S peerFp
  match loadSession F.S store peerNid with
  | some session => .ok session
  | none =>
    match initSharedSecret F ourKyber peerKyber coins payload with
    | .error e => .error e
    | .ok secret =>
      match new F.R peerFp peerNid identity.fingerprint false secret.val with
      | .error e => .error ("ratchet init: " ++ errorText e)
      | .ok session => .ok session

/-- `handle_incoming_connection` from the lookup of the session to its use. Here too the
session is saved before the message is decrypted, and not again. -/
def decryptDirect (identity : Identity) (peerFp : String) (ourKyber : MlKem1024Keypair F.R)
    (peerKyber : Option F.R.EncapsulationKey) (coins : F.R.Coins) (payload : Json)
    (written : Except String Unit) (store : Store) : Outcome String × Store :=
  let peerNid := nullId F.S peerFp
  match incomingSession F identity peerFp ourKyber peerKyber coins payload store with
  | .error e => (fail e, store)
  | .ok session =>
    let store := saveSession F.S store peerNid session written
    match decryptMessage F.R session ((strField payload "ciphertext").getD "") ourKyber
        (messageSeq payload) with
    | (.error e, _) => (fail ("decrypt failed: " ++ errorText e), store)
    | (.ok padded, session) => (⟨.ok padded, some ⟨peerNid, none, session⟩⟩, store)

/-- What comes of a `relay-store`: the relay confirms it, answers something else, or the
request cannot be signed or sent or is not answered. -/
inductive RelayReply where
  | ok
  | refused (response : String)
  | lost (text : String)

def relaySendSession (identity : Identity) (recipientNid recipientFp : String)
    (recipientKyber : F.R.EncapsulationKey) (forceFirst : Bool) (initCoins : F.R.Coins)
    (store : Store) : Except String SendSession :=
  let isSelf := recipientNid == identity.nullId
  let stored := if forceFirst then none else loadSession F.S store recipientNid
  let (ct, sharedSecret) := F.R.encapsulate recipientKyber initCoins
  match stored with
  | some session => .ok ⟨session, true, none⟩
  | none =>
    if isSelf then
      match newSelf F.R recipientFp recipientNid identity.fingerprint sharedSecret.val with
      | .error e => .error ("ratchet init self: " ++ errorText e)
      | .ok session => .ok ⟨session, false, none⟩
    else
      match new F.R recipientFp recipientNid identity.fingerprint true sharedSecret.val with
      | .error e => .error ("ratchet init: " ++ errorText e)
      | .ok session => .ok ⟨session, false, some ct⟩

/-- To oneself every message has the format of a first one. -/
def encryptForRelay (isSelf : Bool) (s : SendSession) (padded : String)
    (kyber : F.R.EncapsulationKey) (draws : Draws F) :
    Except CryptoError Bytes × RatchetState :=
  if isSelf then encryptFirst F.R s.session padded draws.nonce
  else encryptWith F s padded kyber draws

def encryptStep (isSelf : Bool) (kyberCt : Option MlKem1024Ciphertext) : String :=
  if isSelf then "ratchet encrypt_first (self): "
  else if kyberCt.isSome then "ratchet encrypt_first: "
  else "ratchet encrypt: "

/-- The blob that is stored for the recipient. -/
def relayEnvelope (identity : Identity) (ciphertext : Bytes)
    (kyberCt : Option MlKem1024Ciphertext) : Json :=
  .object (("ciphertext", .string (F.R.base64Encode ciphertext)) ::
    optionalField "kyber_ciphertext" (kyberCt.map fun ct => hexEncode ct.val) ++
    [("msg_hash", .string (sha256Hex F.S ciphertext)),
      ("sender_fp", .string identity.fingerprint), ("sender_nid", .string identity.nullId),
      ("seq", .number (.posInt 1)), ("type", .string "p2p-message")])

/-- `send_via_relay` once it is connected: the session is saved after the relay has
confirmed the message. The result is the signed blob. -/
def sendViaRelay (identity : Identity) (recipientNid recipientFp message : String)
    (recipientKyber : Except String F.R.EncapsulationKey) (forceFirst : Bool) (draws : Draws F)
    (reply : RelayReply) (written : Except String Unit) (store : Store) :
    Outcome String × Store :=
  match recipientKyber with
  | .error e => (fail e, store)
  | .ok kyber =>
    match relaySendSession F identity recipientNid recipientFp kyber forceFirst draws.initCoins
        store with
    | .error e => (fail e, store)
    | .ok start =>
      let isSelf := recipientNid == identity.nullId
      match padMessageBucket message draws.padding with
      | none => (fail paddingPanic, store)
      | some padded =>
        match encryptForRelay F isSelf start padded kyber draws with
        | (.error e, _) => (fail (encryptStep isSelf start.kyberCt ++ errorText e), store)
        | (.ok ciphertext, session) =>
          let source := if start.stored then some start.session else none
          let used : Use := ⟨recipientNid, source, session⟩
          match reply with
          | .lost text => (⟨.error text, some used⟩, store)
          | .refused response => (⟨.error ("relay error: " ++ response), some used⟩, store)
          | .ok =>
            let store := saveSession F.S store recipientNid session written
            match written with
            | .error e => (⟨.error ("ratchet save: " ++ e), some used⟩, store)
            | .ok () =>
              (⟨.ok (F.J.display (relayEnvelope F identity ciphertext start.kyberCt)),
                some used⟩, store)

/-- The null id a relayed message is attributed to. -/
def relaySender (env : Json) (senderNid senderFp : String) : Except String String :=
  let blobSenderNid := (strField env "sender_nid").getD ""
  let blobSenderFp := (strField env "sender_fp").getD ""
  if blobSenderNid ≠ "" ∧ blobSenderFp ≠ "" then .ok blobSenderNid
  else if senderNid ≠ "" ∧ senderNid ≠ "anonymous" then .ok senderNid
  else if senderFp ≠ "" ∧ senderFp ≠ "anonymous" then .ok (nullId F.S senderFp)
  else .error "relay message has no recoverable sender identification"

def relayRecvSession (nid senderFp ourFingerprint : String) (kyberCtHex : Option String)
    (ourKyber : MlKem1024Keypair F.R) (store : Store) : Except String RatchetState :=
  if nid = nullId F.S ourFingerprint then
    match loadSession F.S store nid with
    | some session => .ok session
    | none => .error ("no self session for " ++ nid ++ " (send to yourself first)")
  else
    match kyberCtHex with
    | some kyberCt =>
      match hexDecode kyberCt with
      | none => .error ("kyber_ct hex decode: " ++ F.hexError kyberCt)
      | some kyberCtBytes =>
        match ciphertextTryFrom kyberCtBytes with
        | none => .error "kyber_ct parse: TryFromSliceError(())"
        | some ct =>
          match new F.R senderFp nid ourFingerprint false
              (F.R.decapsulate ourKyber.dec ct).val with
          | .error e => .error ("ratchet init: " ++ errorText e)
          | .ok session => .ok session
    | none =>
      match loadSession F.S store nid with
      | some session => .ok session
      | none =>
        .error ("no ratchet session for sender " ++ nid ++
          " (need first message with kyber_ciphertext)")

/-- A blob with a Kyber ciphertext is a first message. -/
def relayDecrypt (session : RatchetState) (env : Json) (ciphertext : String)
    (ourKyber : MlKem1024Keypair F.R) : Except CryptoError String × RatchetState :=
  if (strField env "kyber_ciphertext").isSome then decryptFirst F.R session ciphertext
  else decryptMessage F.R session ciphertext ourKyber (messageSeq env)

/-- A relayed message decrypted: whose session it took, the padded text and the session
after it. -/
structure RelayOpened where
  nid : String
  padded : String
  session : RatchetState

/-- `relay_decrypt_message` up to the decryption. -/
def relayOpen (signedBlob senderNid senderFp ourFingerprint : String)
    (ourKyber : MlKem1024Keypair F.R) (store : Store) : Except String RelayOpened :=
  match F.J.fromStr signedBlob with
  | .error e => .error ("parse signed_blob: " ++ e)
  | .ok env =>
    match relaySender F env senderNid senderFp with
    | .error e => .error e
    | .ok nid =>
      if nid = "" then .error "relay message has no sender identification"
      else
        match strField env "ciphertext" with
        | none => .error "no ciphertext in relay message"
        | some ciphertext =>
          match relayRecvSession F nid senderFp ourFingerprint (strField env "kyber_ciphertext")
              ourKyber store with
          | .error e => .error e
          | .ok session =>
            match relayDecrypt F session env ciphertext ourKyber with
            | (.error e, _) => .error ("ratchet decrypt: " ++ errorText e)
            | (.ok padded, session) => .ok ⟨nid, padded, session⟩

/-- `relay_decrypt_message`: the session is saved after the message was decrypted and
its padding removed. -/
def relayDecryptMessage (signedBlob senderNid senderFp ourFingerprint : String)
    (ourKyber : MlKem1024Keypair F.R) (written : Except String Unit) (store : Store) :
    Outcome String × Store :=
  match relayOpen F signedBlob senderNid senderFp ourFingerprint ourKyber store with
  | .error e => (fail e, store)
  | .ok opened =>
    let used : Use := ⟨opened.nid, none, opened.session⟩
    match unpadMessageBucket F.lossy F.hexError opened.padded with
    | .error e => (⟨.error e, some used⟩, store)
    | .ok plaintext =>
      let store := saveSession F.S store opened.nid opened.session written
      match written with
      | .error e => (⟨.error ("ratchet re-save: " ++ e), some used⟩, store)
      | .ok () => (⟨.ok plaintext, some used⟩, store)

section

variable {F} {identity : Identity} {store : Store}

theorem encryptWith_isOk (seals : ∀ key nonce pt, (F.R.aesEncrypt key nonce pt).isSome = true)
    (start : SendSession) (padded : String) (kyber : F.R.EncapsulationKey) (draws : Draws F) :
    ∃ wire after, encryptWith F start padded kyber draws = (.ok wire, after) := by
  unfold encryptWith
  cases start.kyberCt with
  | some ct =>
    obtain ⟨body, sealed⟩ := Option.isSome_iff_exists.mp
      (seals (messageKey F.R start.session.sendChainKey) draws.nonce (asBytes padded))
    exact ⟨_, _, encryptFirst_sealed F.R start.session sealed⟩
  | none =>
    obtain ⟨body, sealed⟩ := Option.isSome_iff_exists.mp
      (seals (messageKey F.R (start.session.sendChainKey ++
        (F.R.encapsulate kyber draws.coins).2.val)) draws.nonce (asBytes padded))
    exact encryptMessage_sealed F.R start.session sealed

theorem directSession_of_some {recipientFp : String} {peerKyber : F.R.EncapsulationKey}
    {initCoins : F.R.Coins} {session : RatchetState}
    (loaded : loadSession F.S store (nullId F.S recipientFp) = some session) :
    directSession F identity recipientFp peerKyber initCoins store =
      .ok ⟨session, true, none⟩ := by
  simp only [directSession, loaded]

theorem directSession_of_none {recipientFp : String} {peerKyber : F.R.EncapsulationKey}
    {initCoins : F.R.Coins}
    (missing : loadSession F.S store (nullId F.S recipientFp) = none) :
    directSession F identity recipientFp peerKyber initCoins store =
      .ok ⟨started F.R recipientFp (nullId F.S recipientFp) identity.fingerprint true false
        (F.R.encapsulate peerKyber initCoins).2.val, false,
        some (F.R.encapsulate peerKyber initCoins).1⟩ := by
  have long : 32 ≤ (F.R.encapsulate peerKyber initCoins).2.val.length :=
    (F.R.encapsulate peerKyber initCoins).2.property.ge
  simp only [directSession, missing, new, newWithMode_started F.R _ _ _ _ _ long]

theorem incomingSession_of_some {peerFp : String} {ourKyber : MlKem1024Keypair F.R}
    {peerKyber : Option F.R.EncapsulationKey} {coins : F.R.Coins} {payload : Json}
    {session : RatchetState} (loaded : loadSession F.S store (nullId F.S peerFp) = some session) :
    incomingSession F identity peerFp ourKyber peerKyber coins payload store =
      .ok session := by
  simp only [incomingSession, loaded]

theorem incomingSession_of_none {peerFp : String} {ourKyber : MlKem1024Keypair F.R}
    {peerKyber : Option F.R.EncapsulationKey} {coins : F.R.Coins} {payload : Json}
    {secret : MlKem1024SharedSecret}
    (missing : loadSession F.S store (nullId F.S peerFp) = none)
    (agreed : initSharedSecret F ourKyber peerKyber coins payload = .ok secret) :
    incomingSession F identity peerFp ourKyber peerKyber coins payload store =
      .ok (started F.R peerFp (nullId F.S peerFp) identity.fingerprint false false secret.val) := by
  have long : 32 ≤ secret.val.length := secret.property.ge
  simp only [incomingSession, missing, agreed, new, newWithMode_started F.R _ _ _ _ _ long]

/-- Where AES-GCM seals everything, a direct message goes out if it finds a bucket and
the session can be saved. -/
theorem sendDirect_isOk_iff (seals : ∀ key nonce pt, (F.R.aesEncrypt key nonce pt).isSome = true)
    {recipientFp message : String} {ttl : Option String} {peerKyber : F.R.EncapsulationKey}
    {draws : Draws F} {written : Except String Unit} :
    (∃ sent, (sendDirect F identity recipientFp message ttl peerKyber draws written
        store).1.result = .ok sent) ↔
      (asBytes message).length < 65536 ∧ written = .ok () := by
  obtain ⟨start, starts⟩ :
      ∃ start, directSession F identity recipientFp peerKyber draws.initCoins store =
        .ok start := by
    cases loaded : loadSession F.S store (nullId F.S recipientFp) with
    | none => exact ⟨_, directSession_of_none loaded⟩
    | some session => exact ⟨_, directSession_of_some loaded⟩
  simp only [sendDirect, starts]
  cases written with
  | error e => simp [fail]
  | ok _ =>
    simp only [and_true]
    have fits : (padMessageBucket message draws.padding).isSome = true ↔
        (asBytes message).length < 65536 := padMessageBucket_isSome
    rw [← fits]
    cases pads : padMessageBucket message draws.padding with
    | none => simp [fail]
    | some padded =>
      obtain ⟨wire, after, encrypted⟩ := encryptWith_isOk seals start padded peerKyber draws
      simp [encrypted]

end

def smallPlatform (known : List Json) : Platform where
  R := checksumPrimitives
  S := Signatures.sumScheme
  J := knownJson known
  encKeyToBytes key := [key]
  encKeyNewFromSlice bytes := if bytes.length = 1 then bytes.head? else none
  sha512 := id
  lossy bytes := (fromUtf8 bytes).getD "\uFFFD"
  hexError _ := "Odd number of digits"

/-- Draws that are the same byte throughout. -/
def smallDraws (known : List Json) (b : UInt8) : Draws (smallPlatform known) where
  initCoins := b
  coins := b
  nonce := checksumNonce
  padding _ := b

end ClientSessions
