import AddMessenger.ClientSessions
import AddMessenger.PeerHandshake

/-!
# A connection between two clients

`send_message` of `client/src/main.rs` once it is connected, and
`handle_incoming_connection`: the handshake with its signatures, the keys exchanged in
it and the sealed identity, then the message and its session.

What the network brings, the key a DHT lookup returns and the clock are arguments, as
are the encapsulation keys reassembled from the braid.
-/

namespace PeerConnection

open ByteStrings ClientSessions MessageStore PeerHandshake Protocol Ratchet Signatures

/-- A client that can sign: its verifying key in base64 and `sign_for_transport`. -/
structure Account (F : Platform) extends Party F where
  verifyingKeyB64 : String
  sign : String → Except String String

variable (F : Platform)

def encodeEncKey (key : F.R.EncapsulationKey) : String := F.R.base64Encode (F.encKeyToBytes key)

def decodeEncKey (b64 : String) : Option F.R.EncapsulationKey :=
  (F.R.base64Decode b64).toOption.bind F.encKeyNewFromSlice

/-- The reassembled key must be the one in the signed frame. -/
def verifyPeerEkFromBytes (reconstructedEk authenticatedInlineEk : Bytes) : Except String Bytes :=
  if F.sha512 reconstructedEk ≠ F.sha512 authenticatedInlineEk then
    .error "braid EK hash mismatch — stream tampered"
  else if reconstructedEk ≠ authenticatedInlineEk then
    .error "braid EK does not match authenticated inline kyber_enc_key — possible MITM"
  else .ok reconstructedEk

def braidFlag (payload : Json) : Bool := ((payload.get "braid").bind Json.asBool).getD false

def inlineEk (payload : Json) : String := (strField payload "kyber_enc_key").getD ""

/-- The key of a peer that streams it; `exchange` is what the braid brought. -/
def braidedKey (payload : Json) (exchange : Except String Bytes) :
    Except String (Option F.R.EncapsulationKey) :=
  match exchange with
  | .error e => .error ("braid EK exchange: " ++ e)
  | .ok peerEkBytes =>
    match F.R.base64Decode (inlineEk payload) with
    | .error e => .error ("inline kyber_enc_key decode: " ++ e)
    | .ok inline =>
      match verifyPeerEkFromBytes F peerEkBytes inline with
      | .error e => .error ("[braid] peer EK failed authentication (" ++ e ++ "), aborting")
      | .ok ek => .ok (decodeEncKey F (F.R.base64Encode ek))

/-- The key `send_message` encapsulates to. -/
def ackKyberKey (payload : Json) (exchange : Except String Bytes) :
    Except String F.R.EncapsulationKey :=
  let found :=
    if braidFlag payload then braidedKey F payload exchange
    else if inlineEk payload ≠ "" then .ok (decodeEncKey F (inlineEk payload))
    else .ok none
  match found with
  | .error e => .error e
  | .ok none => .error "No authenticated Kyber public key from peer, aborting (fail-closed)"
  | .ok (some key) => .ok key

/-- The key `handle_incoming_connection` keeps of its peer. -/
def helloKyberKey (payload : Json) (exchange : Except String Bytes) :
    Except String (Option F.R.EncapsulationKey) :=
  if braidFlag payload then
    match braidedKey F payload exchange with
    | .error e => .error e
    | .ok none => .error "[braid] reassembled peer EK invalid after authentication, aborting"
    | .ok (some key) => .ok (some key)
  else .ok ((strField payload "kyber_enc_key").bind (decodeEncKey F))

variable {F} in
/-- A streamed key that is the inline one is taken. -/
theorem helloKyberKey_streamed (roundTrip : ∀ b, F.R.base64Decode (F.R.base64Encode b) = .ok b)
    {payload : Json} {ek : Bytes} {key : F.R.EncapsulationKey} (braid : braidFlag payload = true)
    (inline : F.R.base64Decode (inlineEk payload) = .ok ek)
    (parsed : F.encKeyNewFromSlice ek = some key) :
    helloKyberKey F payload (.ok ek) = .ok (some key) := by
  simp [helloKyberKey, braid, braidedKey, inline, verifyPeerEkFromBytes, decodeEncKey, roundTrip,
    Except.toOption, parsed]

/-- The ciphertext of an encapsulation, if the responder's key was found; its shared
secret is not used. -/
def sealedIdentity (lookup : Except String F.R.EncapsulationKey) (coins : F.R.Coins) : String :=
  match lookup with
  | .error _ => ""
  | .ok responderKyber => hexEncode (F.R.encapsulate responderKyber coins).1.val

/-- The payload `build_p2p_hello_signed` gives a hello. -/
def helloPayload (publicKey kyberEncKey sealedIdentity senderVerifyingKey : String) : Json :=
  .object ([("braid", .bool true), ("kyber_enc_key", .string kyberEncKey),
    ("nonce", .number (.posInt 1)), ("pow_bits", .number (.posInt 16)),
    ("public_key", .string publicKey), ("sealed_identity", .string sealedIdentity)] ++
    if senderVerifyingKey = "" then []
    else [("sender_verifying_key", .string senderVerifyingKey)])

@[simp] theorem inlineEk_helloPayload {publicKey kyberEncKey sealed senderVerifyingKey : String} :
    inlineEk (helloPayload publicKey kyberEncKey sealed senderVerifyingKey) = kyberEncKey := rfl

@[simp] theorem braidFlag_helloPayload {publicKey kyberEncKey sealed senderVerifyingKey : String} :
    braidFlag (helloPayload publicKey kyberEncKey sealed senderVerifyingKey) = true := rfl

@[simp] theorem claimedFp_helloPayload {publicKey kyberEncKey sealed senderVerifyingKey : String} :
    claimedFp (helloPayload publicKey kyberEncKey sealed senderVerifyingKey) = publicKey := rfl

/-- An envelope as its receiver sees it. -/
def wireFrame (msgType msgId : String) (ts : UInt64) (payload : Json) (sig : String) : Json :=
  .object [("msg_id", .string msgId), ("payload", payload), ("sig", .string sig),
    ("ts", .number (.float ts)), ("type", .string msgType)]

section

variable {msgType msgId sig : String} {ts : UInt64} {payload : Json}

@[simp] theorem frameType_wireFrame :
    frameType (wireFrame msgType msgId ts payload sig) = some msgType := rfl

@[simp] theorem framePayload_wireFrame :
    framePayload (wireFrame msgType msgId ts payload sig) = payload := rfl

@[simp] theorem frameSig_wireFrame :
    frameSig (wireFrame msgType msgId ts payload sig) = sig := rfl

end

/-- The check of the sealed identity: the decapsulated secret is read as the null id of
the receiver and the fingerprint of the peer. -/
def checkSealedIdentity (me : Party F) (peerFp : String) (payload : Json) : Except String Unit :=
  match (strField payload "sealed_identity").filter (· ≠ "") with
  | none => .ok ()
  | some sealed =>
    match hexDecode sealed with
    | none => .error ("sealed_identity decode: " ++ F.hexError sealed)
    | some ctBytes =>
      match ciphertextTryFrom ctBytes with
      | none => .error "sealed_identity parse: could not convert slice to array"
      | some ct =>
        match splitOnce (124 : UInt8) (F.R.decapsulate me.kyber.dec ct).val with
        | none => .error "sealed_identity malformed: expected nid|fp"
        | some (nidBytes, fpBytes) =>
          match fromUtf8 nidBytes, fromUtf8 fpBytes with
          | none, _ => .error "sealed_identity nid not utf-8"
          | some _, none => .error "sealed_identity fp not utf-8"
          | some nid, some fp =>
            if nid ≠ me.identity.nullId then
              .error ("sealed_identity mismatch: expected nid=" ++ me.identity.nullId ++
                " got=" ++ nid)
            else if fp ≠ peerFp then
              .error ("sealed_identity fp mismatch: expected=" ++ peerFp ++ " got=" ++ fp)
            else .ok ()

/-- What the network and the machine bring to one `send_message`: the answer to the hello,
the braid, the random draws and the answer of the database. -/
structure Answers where
  resp : Option String
  exchange : Except String Bytes
  draws : Draws F
  written : Except String Unit
  clock : Nat → Nat

def frameOf (J : SerdeJson) (text : String) : Json := (J.fromStr text).toOption.getD .null

theorem frameOf_of_ok {J : SerdeJson} {text : String} {frame : Json}
    (parsed : J.fromStr text = .ok frame) : frameOf J text = frame := by
  rw [frameOf, parsed]
  rfl

/-- `send_message` from its hello on: the ack is checked, a key taken from it, and the
message encrypted and signed. -/
def sendToPeer (me : Account F) (cache : KeyCache F.S) (store : Store)
    (recipientFp message : String) (ttl : Option String) (answers : Answers F) :
    Except String DirectMessage × KeyCache F.S × Store :=
  match answers.resp with
  | none => (.error "No hello-ack received", cache, store)
  | some resp =>
    match receiveHelloAck F.J cache resp answers.clock with
    | (.error e, cache) => (.error e, cache, store)
    | (.ok _, cache) =>
      match ackKyberKey F (framePayload (frameOf F.J resp)) answers.exchange with
      | .error e => (.error e, cache, store)
      | .ok peerKyber =>
        match sendDirect F me.identity recipientFp message ttl peerKyber answers.draws
            answers.written store with
        | (⟨.error e, _⟩, store) => (.error e, cache, store)
        | (⟨.ok sent, _⟩, store) =>
          match me.sign (msgSigPayload F.J sent.payload) with
          | .error e => (.error e, cache, store)
          | .ok _ => (.ok sent, cache, store)

/-- What one incoming connection brings. -/
structure Incoming where
  helloText : String
  frames : List String
  exchange : Except String Bytes
  coins : F.R.Coins
  serverChallenge : String
  contacts : List String
  fetched : Option F.S.VerifyingKey
  written : Except String Unit
  clock : Nat → Nat

/-- The payload of the hello-ack. -/
def helloAckPayload (publicKey kyberEncKey serverChallenge senderVerifyingKey : String) : Json :=
  .object [("braid", .bool true), ("kyber_enc_key", .string kyberEncKey),
    ("nonce", .number (.posInt 1)), ("pow_bits", .number (.posInt 16)),
    ("public_key", .string publicKey), ("sender_verifying_key", .string senderVerifyingKey),
    ("server_challenge", .string serverChallenge)]

/-- The handshake as the responder sees it: the peer's fingerprint and key. -/
def acceptHello (me : Account F) (cache : KeyCache F.S) (c : Incoming F) :
    Except String (String × Option F.R.EncapsulationKey) × KeyCache F.S :=
  match receiveHello F.J cache c.helloText c.contacts c.fetched c.clock with
  | (.error e, cache) => (.error e, cache)
  | (.ok peerFp, cache) =>
    let payload := framePayload (frameOf F.J c.helloText)
    match checkSealedIdentity F me.toParty peerFp payload with
    | .error e => (.error e, cache)
    | .ok () =>
      let ack := helloAckPayload me.identity.fingerprint (encodeEncKey F me.kyber.enc)
        c.serverChallenge me.verifyingKeyB64
      match me.sign (helloAckSigData F.J ack) with
      | .error e => (.error e, cache)
      | .ok _ =>
        match helloKyberKey F payload c.exchange with
        | .error e => (.error e, cache)
        | .ok peerKyber => (.ok (peerFp, peerKyber), cache)

def isMessage (J : SerdeJson) (text : String) : Bool :=
  match J.fromStr text with
  | .error _ => false
  | .ok frame => frameType frame == some "p2p-message"

/-- The line printed for a message. -/
structure Printed where
  senderNid : String
  peerFp : String
  plaintext : String

/-- A message that was read: the line printed for it and its ciphertext. -/
structure ReadMessage where
  printed : Printed
  ciphertext : String

/-- `handle_incoming_connection` up to the line it prints. -/
def readIncoming (me : Account F) (cache : KeyCache F.S) (store : Store) (c : Incoming F) :
    Except String ReadMessage × KeyCache F.S × Store :=
  match acceptHello F me cache c with
  | (.error e, cache) => (.error e, cache, store)
  | (.ok (peerFp, peerKyber), cache) =>
    -- control frames before the message are skipped
    match c.frames.find? (isMessage F.J) with
    | none => (.error "connection closed before p2p-message", cache, store)
    | some text =>
      match receiveMessage F.J cache peerFp text fun i => c.clock (5 + i) with
      | (some (.ok ()), cache) =>
        let payload := framePayload (frameOf F.J text)
        match decryptDirect F me.identity peerFp me.kyber peerKyber c.coins payload c.written
            store with
        | (⟨.error e, _⟩, store) => (.error e, cache, store)
        | (⟨.ok padded, _⟩, store) =>
          match unpadMessageBucket F.lossy F.hexError padded with
          | .error e => (.error e, cache, store)
          | .ok plaintext =>
            (.ok ⟨⟨nullId F.S peerFp, peerFp, plaintext⟩, (strField payload "ciphertext").getD ""⟩,
              cache, store)
      | (some (.error e), cache) => (.error e, cache, store)
      | (none, cache) => (.error "connection closed before p2p-message", cache, store)

section

variable {F} {me : Account F} {cache : KeyCache F.S} {store : Store} {c : Incoming F}

theorem acceptHello_cache :
    (acceptHello F me cache c).2 =
      (receiveHello F.J cache c.helloText c.contacts c.fetched c.clock).2 := by
  simp only [acceptHello]
  generalize receiveHello F.J cache c.helloText c.contacts c.fetched c.clock = received
  obtain ⟨result, kept⟩ := received
  cases result with
  | error e => rfl
  | ok peerFp =>
    simp only
    split
    · rfl
    · split
      · rfl
      · split <;> rfl

/-- The payload of the ack to a connection. -/
def ackPayload (me : Account F) (c : Incoming F) : Json :=
  helloAckPayload me.identity.fingerprint (encodeEncKey F me.kyber.enc) c.serverChallenge
    me.verifyingKeyB64

theorem acceptHello_iff {peerFp : String} {peerKyber : Option F.R.EncapsulationKey} :
    (acceptHello F me cache c).1 = .ok (peerFp, peerKyber) ↔
      (receiveHello F.J cache c.helloText c.contacts c.fetched c.clock).1 = .ok peerFp ∧
      checkSealedIdentity F me.toParty peerFp (framePayload (frameOf F.J c.helloText)) = .ok () ∧
      (∃ sig, me.sign (helloAckSigData F.J (ackPayload me c)) = .ok sig) ∧
      helloKyberKey F (framePayload (frameOf F.J c.helloText)) c.exchange = .ok peerKyber := by
  simp only [acceptHello, ackPayload]
  generalize receiveHello F.J cache c.helloText c.contacts c.fetched c.clock = received
  obtain ⟨result, kept⟩ := received
  cases result with
  | error e => simp
  | ok fp =>
    simp only [Except.ok.injEq]
    constructor
    · intro accepted
      split at accepted
      · cases accepted
      · rename_i checked
        split at accepted
        · cases accepted
        · rename_i sig signed
          split at accepted
          · cases accepted
          · rename_i key keyed
            cases accepted
            exact ⟨rfl, checked, ⟨sig, signed⟩, keyed⟩
    · rintro ⟨rfl, checked, ⟨sig, signed⟩, keyed⟩
      simp only [checked, signed, keyed]

theorem readIncoming_iff {read : ReadMessage} :
    (readIncoming F me cache store c).1 = .ok read ↔
      ∃ peerFp peerKyber text padded plaintext,
        (acceptHello F me cache c).1 = .ok (peerFp, peerKyber) ∧
        c.frames.find? (isMessage F.J) = some text ∧
        (receiveMessage F.J (acceptHello F me cache c).2 peerFp text
          fun i => c.clock (5 + i)).1 = some (.ok ()) ∧
        (decryptDirect F me.identity peerFp me.kyber peerKyber c.coins
          (framePayload (frameOf F.J text)) c.written store).1.result = .ok padded ∧
        unpadMessageBucket F.lossy F.hexError padded = .ok plaintext ∧
        read = ⟨⟨nullId F.S peerFp, peerFp, plaintext⟩,
          (strField (framePayload (frameOf F.J text)) "ciphertext").getD ""⟩ := by
  simp only [readIncoming]
  generalize acceptHello F me cache c = accepted
  obtain ⟨result, kept⟩ := accepted
  cases result with
  | error e => simp
  | ok peer =>
    obtain ⟨peerFp, peerKyber⟩ := peer
    constructor
    · intro done
      cases found : c.frames.find? (isMessage F.J) with
      | none =>
        simp only [found] at done
        cases done
      | some text =>
        simp only [found] at done
        split at done
        · rename_i after received
          split at done
          · cases done
          · rename_i padded used later decrypted
            split at done
            · cases done
            · rename_i plaintext unpadded
              refine ⟨peerFp, peerKyber, text, padded, plaintext, rfl, rfl, ?_, ?_, unpadded,
                (Except.ok.inj done).symm⟩
              · rw [received]
              · rw [decrypted]
        · cases done
        · cases done
    · rintro ⟨fp, kyber, text, padded, plaintext, same, found, received, decrypted, unpadded, rfl⟩
      cases same
      simp only [found] at received ⊢
      generalize receiveMessage F.J kept peerFp text (fun i => c.clock (5 + i)) = check
        at received ⊢
      obtain ⟨verdict, after⟩ := check
      cases received
      simp only
      generalize decryptDirect F me.identity peerFp me.kyber peerKyber c.coins
        (framePayload (frameOf F.J text)) c.written store = opened at decrypted ⊢
      obtain ⟨⟨outcome, used⟩, later⟩ := opened
      cases decrypted
      simp only [unpadded]

end

/-- Frames with different ids have different texts. -/
theorem compact_wireFrame_ne (msgType msgType' : String) (ts ts' : UInt64) (payload payload' : Json)
    (sig sig' : String) :
    compact (wireFrame msgType "2" ts payload sig) ≠
      compact (wireFrame msgType' "1" ts' payload' sig') := by
  intro same
  have texts := congrArg String.toList same
  simp [wireFrame, compact, compactFields, compactField] at texts

end PeerConnection
