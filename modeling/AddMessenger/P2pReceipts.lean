import AddMessenger.PeerConnection
import AddMessenger.SigningTexts

/-!
# The receipts of a direct message

What `handle_incoming_connection` answers to a message it has read, and the two places
that check the answer: `send_message` at the sender and `relay-read-receipt` at a relay.
One signature goes into both answers. It is made over the hash of the ciphertext's base64
text, while the receipt carries the hash of the plaintext, the sender expects the hash of
the ciphertext's bytes, and the relay a text of another form.
-/

namespace P2pReceipts

open ByteStrings ClientSessions Doubles MessageStore PeerConnection Protocol RelayServer Signatures
  SigningTexts

variable {F : Platform}

structure P2pReceipt where
  msgHash : String
  receivedAt : F64
  seq : Int64
  sig : String

/-- The readings of the clock while a message is answered. -/
structure Times where
  signedAt : F64
  receivedAt : F64
  timestamp : F64

def ackSigData (J : SerdeJson) (msgHash : String) : String :=
  "p2p-ack:" ++ J.display (.object [("msg_hash", .string msgHash), ("seq", .number (.posInt 1))]) ++
    "\n"

/-- The text of a receipt's signature; `display` is `Display` of a double. -/
def receiptSigData (display : F64 → String) (msgHash : String) (receivedAt : F64) : String :=
  "p2p-receipt:" ++ msgHash ++ ":" ++ display receivedAt ++ ":1"

/-- The end of `handle_incoming_connection`: the receipt for the sender and the one for
the relays. -/
def answer (display : F64 → String) (me : Account F) (read : ReadMessage) (times : Times)
    (nonce : String) (relayUrls : List String) : Except String (P2pReceipt × RelayReadReceipt) :=
  let plaintextHash := sha256Hex F.S (asBytes read.printed.plaintext)
  let ciphertextHash := sha256Hex F.S (asBytes read.ciphertext)
  match me.sign (ackSigData F.J plaintextHash) with
  | .error e => .error e
  | .ok _ =>
    match me.sign (receiptSigData display ciphertextHash times.signedAt) with
    | .error e => .error e
    | .ok receiptSig =>
      .ok (⟨plaintextHash, times.receivedAt, 1, receiptSig⟩,
        { messageId := ciphertextHash
          recipientNid := me.identity.nullId
          recipientFp := me.identity.fingerprint
          signature := receiptSig
          timestamp := times.timestamp
          nonce
          recipientVerifyingKey := me.verifyingKeyB64
          otherRelays := relayUrls })

def verifyReceiptSignature (display : F64 → String) (cache : KeyCache F.S) (msgHash : String)
    (receivedAt : F64) (signature recipientFp : String) (now : Nat) : Bool × KeyCache F.S :=
  if signature = "" then (false, cache)
  else verifySignature cache (receiptSigData display msgHash receivedAt) signature recipientFp now

/-- What `send_message` prints for a receipt. -/
inductive Report where
  | read (receivedAt : F64)
  | hashMismatch (sent received : String)
  | unverified

def checkReceipt (display : F64 → String) (cache : KeyCache F.S) (msgHash recipientFp : String)
    (receipt : P2pReceipt) (now : Nat) : Report × KeyCache F.S :=
  match verifyReceiptSignature display cache receipt.msgHash receipt.receivedAt receipt.sig
      recipientFp now with
  | (false, cache) => (.unverified, cache)
  | (true, cache) =>
    if receipt.msgHash = msgHash then (.read receipt.receivedAt, cache)
    else (.hashMismatch msgHash receipt.msgHash, cache)

/-- Both consumers take the answer: the sender, of a message with this ciphertext, reports
it as read, and the relay accepts the signature. -/
def ReceiptsVerify (cfg : ServerConfig) (cache : KeyCache F.S) (encrypted : Bytes)
    (recipientFp : String) (now : Nat) (s : ServerState) (env : Env)
    (answered : P2pReceipt × RelayReadReceipt) : Prop :=
  (checkReceipt cfg.display cache (sha256Hex F.S encrypted) recipientFp answered.1 now).1 =
      .read answered.1.receivedAt ∧
    Verifies cfg s answered.2.toRelayDeleteRequest env

/-- A hash begins with a digit, the text of a receipt does not. -/
theorem signed_texts_differ {cfg : ServerConfig} {S : Signatures.Primitives} {text : Bytes}
    {q : RelayDeleteRequest} (hashed : q.messageId = sha256Hex S text) (msgHash : String)
    (receivedAt : F64) :
    receiptSigningData cfg q ≠ receiptSigData cfg.display msgHash receivedAt := by
  intro same
  have texts := congrArg String.toList same
  rw [receiptSigningData_toList, hashed, sha256Hex, hexEncode, String.toList_ofList] at texts
  generalize S.sha256 text = hash at texts
  obtain ⟨digest, size⟩ := hash
  cases digest with
  | nil => cases size
  | cons x rest =>
    have first : some (hexDigit (x / 16)) = some 'p' := by
      simpa [receiptSigData] using congrArg List.head? texts
    have digit := hexValue_div x
    rw [Option.some.inj first] at digit
    cases digit

section

variable {display : F64 → String} {me : Account F} {read : ReadMessage} {times : Times}
  {nonce : String} {relayUrls : List String} {answered : P2pReceipt × RelayReadReceipt}

theorem answer_ok (answers : answer display me read times nonce relayUrls = .ok answered) :
    me.sign (receiptSigData display (sha256Hex F.S (asBytes read.ciphertext)) times.signedAt) =
        .ok answered.2.signature ∧
      answered.2.messageId = sha256Hex F.S (asBytes read.ciphertext) ∧
      answered.1.msgHash = sha256Hex F.S (asBytes read.printed.plaintext) := by
  simp only [answer] at answers
  split at answers
  · cases answers
  · split at answers
    · cases answers
    · rename_i receiptSig signed
      cases answers
      exact ⟨signed, rfl, rfl⟩

/-- The relay asks for a signature over another text. -/
theorem relay_refuses {cfg : ServerConfig} {s : ServerState} {env : Env}
    (sound : ∀ data sig, me.sign data = .ok sig → BoundTo cfg.P sig data)
    (answers : answer cfg.display me read times nonce relayUrls = .ok answered) :
    ¬ Verifies cfg s answered.2.toRelayDeleteRequest env := by
  obtain ⟨signed, messageId, -⟩ := answer_ok answers
  rintro ⟨-, -, pinned, -, verifies⟩
  exact signed_texts_differ messageId _ _ (sound _ _ signed _ _ verifies)

end

/-- What the sender asks of a receipt before it reports the message as read; the text it
was signed over is not in it. -/
theorem checkReceipt_read_iff {display : F64 → String} {cache : KeyCache F.S}
    {msgHash recipientFp : String} {receipt : P2pReceipt} {now : Nat} :
    (checkReceipt display cache msgHash recipientFp receipt now).1 = .read receipt.receivedAt ↔
      (receipt.sig ≠ "" ∧ validateFingerprint recipientFp = true ∧
        (cachedKey cache recipientFp).isSome = true ∧
        (decoded (P := F.S) receipt.sig).isSome = true) ∧ receipt.msgHash = msgHash := by
  have verdict : (verifyReceiptSignature display cache receipt.msgHash receipt.receivedAt
      receipt.sig recipientFp now).1 = true ↔
      receipt.sig ≠ "" ∧ validateFingerprint recipientFp = true ∧
        (cachedKey cache recipientFp).isSome = true ∧
        (decoded (P := F.S) receipt.sig).isSome = true := by
    rw [verifyReceiptSignature]
    split_ifs with empty
    · simp [empty]
    · simp only [verifySignature_passes_iff, ne_eq, empty, not_false_eq_true, true_and]
  simp only [checkReceipt]
  rw [← verdict]
  generalize verifyReceiptSignature display cache receipt.msgHash receipt.receivedAt receipt.sig
    recipientFp now = check
  obtain ⟨passed, after⟩ := check
  cases passed with
  | false => simp
  | true =>
    simp only [true_and]
    split_ifs with same
    · simp [same]
    · simp [same]

/-- No answer is taken by both consumers: where a signature is good for one text only, the
relay refuses it, and the sender reports a message as read only if its plaintext and its
ciphertext have the same digest. -/
theorem receipts_never_verify (cfg : ServerConfig) (me : Account F)
    (sound : ∀ data sig, me.sign data = .ok sig → BoundTo cfg.P sig data) (read : ReadMessage)
    (times : Times) (nonce : String) (relayUrls : List String)
    (answered : P2pReceipt × RelayReadReceipt)
    (answers : answer cfg.display me read times nonce relayUrls = .ok answered)
    (cache : KeyCache F.S) (encrypted : Bytes) (recipientFp : String) (now : Nat)
    (s : ServerState) (env : Env) :
    ¬ ReceiptsVerify cfg cache encrypted recipientFp now s env answered ∧
      ¬ Verifies cfg s answered.2.toRelayDeleteRequest env ∧
      ((checkReceipt cfg.display cache (sha256Hex F.S encrypted) recipientFp answered.1 now).1 =
          .read answered.1.receivedAt ↔
        (answered.1.sig ≠ "" ∧ validateFingerprint recipientFp = true ∧
          (cachedKey cache recipientFp).isSome = true ∧
          (decoded (P := F.S) answered.1.sig).isSome = true) ∧
          F.S.sha256 (asBytes read.printed.plaintext) = F.S.sha256 encrypted) := by
  have refused : ¬ Verifies cfg s answered.2.toRelayDeleteRequest env := relay_refuses sound answers
  have hash := (answer_ok answers).2.2
  refine ⟨fun verify => refused verify.2, refused, ?_⟩
  rw [checkReceipt_read_iff, hash, sha256Hex_inj]

def echoPlatform : Platform := { smallPlatform [] with S := echoScheme }

/-- The signature of `echoScheme`: the key and the text. -/
def echoSign (key : UInt8) (data : String) : String :=
  echoScheme.base64Encode (key :: asBytes data)

theorem echoDecode_encode (bytes : Bytes) :
    echoScheme.base64Decode (echoScheme.base64Encode bytes) = some bytes := by
  have back : ∀ b : UInt8, UInt8.ofNat (Char.ofUInt8 b).toNat = b := fun b => by
    rw [show (Char.ofUInt8 b).toNat = b.toNat from rfl, UInt8.ofNat_toNat]
  change some ((String.ofList (bytes.map Char.ofUInt8)).toList.map fun c => UInt8.ofNat c.toNat) = _
  rw [String.toList_ofList, List.map_map]
  simp [Function.comp_def, back]

theorem echoSign_bound (key : UInt8) (data : String) :
    BoundTo echoScheme (echoSign key data) data := by
  rintro pinned text ⟨vkBytes, vk, -, -, sig, found, verified⟩
  have echoed : sig = vk :: asBytes text := (echoScheme_verifies vk _ sig).mp verified
  have repeated : sig = key :: asBytes data :=
    Option.some.inj (found.symm.trans (echoDecode_encode (key :: asBytes data)))
  exact asBytes_injective (List.cons.inj (echoed.symm.trans repeated)).2

def bob : Account echoPlatform where
  identity := ⟨"BBBBBBBBBBBBBBBBBBBBBBBBBBBBBBBBBBBBBBBB", "NN-b"⟩
  kyber := ⟨(66 : UInt8), (66 : UInt8)⟩
  verifyingKeyB64 := "B"
  sign data := .ok (echoSign 66 data)

theorem bob_sound (data sig : String) (signed : bob.sign data = .ok sig) :
    BoundTo echoScheme sig data := by
  cases signed
  exact echoSign_bound 66 data

/-- Alice's session with Bob, from an earlier message. -/
def aliceStore : Store :=
  saveSession echoScheme (.empty [1]) (nullId echoScheme bob.identity.fingerprint)
    (Ratchet.started Ratchet.checksumPrimitives bob.identity.fingerprint
      (nullId echoScheme bob.identity.fingerprint) "AAAAAAAAAAAAAAAAAAAAAAAAAAAAAAAAAAAAAAAA" true
      false Ratchet.checksumSecret) (.ok ())

/-- The ciphertext of her next one. -/
def encrypted : Bytes :=
  let sent := (sendDirect echoPlatform ⟨"AAAAAAAAAAAAAAAAAAAAAAAAAAAAAAAAAAAAAAAA", "NN-a"⟩
    bob.identity.fingerprint "hi" none (66 : UInt8)
    ⟨(4 : UInt8), (4 : UInt8), Ratchet.checksumNonce, fun _ => 4⟩ (.ok ()) aliceStore).1.result
  (sent.toOption.map DirectMessage.encrypted).getD []

/-- Bob has read it. -/
def greeting : ReadMessage :=
  ⟨⟨nullId echoScheme "AAAAAAAAAAAAAAAAAAAAAAAAAAAAAAAAAAAAAAAA",
    "AAAAAAAAAAAAAAAAAAAAAAAAAAAAAAAAAAAAAAAA", "hi"⟩, Ratchet.latin1Encode encrypted⟩

def atOnce : Times := ⟨momentStamp, momentStamp, momentStamp⟩

def aliceCache : KeyCache echoScheme :=
  cacheVerifyingKey ∅ bob.identity.fingerprint (66 : UInt8) 0

/-- Bob's answer to a greeting, and what becomes of it. -/
theorem receipts_never_verify_greeting :
    ∃ answered, answer echoConfig.display bob greeting atOnce "n" [] = .ok answered ∧
      ¬ Verifies echoConfig (started false) answered.2.toRelayDeleteRequest moment :=
  ⟨_, rfl, (receipts_never_verify echoConfig bob bob_sound greeting atOnce "n" [] _ rfl aliceCache
    encrypted bob.identity.fingerprint 1 (started false) moment).2.1⟩

/-- With Alice's cache and a fresh relay, Bob's answer to her greeting is not taken. -/
theorem greeting_receipts_refused :
    ∃ answered, answer echoConfig.display bob greeting atOnce "n" [] = .ok answered ∧
      ¬ ReceiptsVerify (F := echoPlatform) echoConfig aliceCache encrypted
        bob.identity.fingerprint 1 (started false) moment answered := by
  refine ⟨_, rfl, ?_⟩
  intro verify
  exact relay_refuses bob_sound
    (Eq.refl (answer echoConfig.display bob greeting atOnce "n" [])) verify.2

end P2pReceipts
