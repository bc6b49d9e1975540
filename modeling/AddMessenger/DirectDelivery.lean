import AddMessenger.ClientSessions
import AddMessenger.RatchetFirst

/-!
# Direct messages between two clients

Two clients that have authenticated each other, the stores of both, and messages from
the one to the other, each delivered before the next is sent. The first message goes
out in the format without a Kyber ciphertext and with the number 1, but its receiver
expects it at position 0 and skips ahead. From the second message on both sides take
the session that was saved before the first message and never since.
-/

namespace DirectDelivery

open ByteStrings ClientSessions Mealy MessageStore Protocol Ratchet RatchetConversation

/-- What a rejection rests on: AES-GCM appends a tag of 16 bytes, and the message key of
the following chain position does not open a message. -/
structure Separates (P : Primitives) : Prop where
  tag : ∀ key nonce ct pt, P.aesDecrypt key nonce ct = some pt → ct.length = pt.length + 16
  next : ∀ chainKey nonce pt ct, P.aesEncrypt (messageKey P chainKey) nonce pt = some ct →
    P.aesDecrypt (messageKey P (nextChainKey P chainKey)) nonce ct ≠ some pt

section

variable {P : Primitives}

/-- A message of position 0 that arrives with the number 1 is not read. -/
theorem decryptMessage_ahead (correct : Correct P) (separates : Separates P)
    (kp : MlKem1024Keypair P) {s : RatchetState} (twoParty : s.selfMode = false)
    (start : s.recvMessageNumber = 0) (unused : s.skippedKeys = ∅) {text : String}
    {nonce : Nonce} {ct : Bytes}
    (sealed : P.aesEncrypt (messageKey P s.recvChainKey) nonce (asBytes text) = some ct) :
    (decryptMessage P s (P.base64Encode (nonce.val ++ ct)) kp 1).1 ≠ .ok text := by
  intro read
  have absent : s.skippedKeys.lookup (toString (1 : UInt64)) = none := by
    rw [unused]
    exact AList.lookup_empty _
  simp only [decryptMessage, correct.base64, take_nonce, drop_nonce, absent] at read
  split at read
  · cases read
  by_cases hasKyber : HasKyber ct
  · -- the last bytes happen to name a Kyber ciphertext: what is left is too short
    simp only [if_pos hasKyber] at read
    exact kyberDecrypt_unread separates.tag (length_sealed correct separates.tag sealed) kp 1 read
  · simp only [if_neg hasKyber] at read
    have near : (1 : UInt64).toNat - s.recvMessageNumber.toNat ≤ maxSkipAhead := by
      rw [start]
      decide
    have one : (1 : UInt64).toNat - s.recvMessageNumber.toNat = 1 := by
      rw [start]
      rfl
    obtain ⟨table, skipped⟩ := skipStep_iterate P 1 s
    have ahead : ((skipStep P)^[1] s).recvChainKey = nextChainKey P s.recvChainKey := by
      rw [skipped]
      simp [chainKeyAhead, twoParty]
    rw [simpleDecrypt_eq P s nonce.val ct 1 near, one] at read
    simp only [ahead] at read
    split at read
    · cases read
    · rename_i pt opened
      have same : pt = asBytes text := toText_ok read
      exact separates.next _ _ _ _ sealed (same ▸ opened)

end

variable {F : Platform}

/-- The stores of the two clients. -/
structure World where
  sender : Store
  receiver : Store

/-- One message and the draws of its sender. -/
structure Send (F : Platform) where
  message : String
  ttl : Option String
  draws : Draws F

/-- The padded text that was encrypted, and what the receiver's session makes of it. -/
structure Delivery where
  padded : Option String
  decrypted : Except String String

def Delivery.Faithful (d : Delivery) : Prop := ∃ padded, d.padded = some padded ∧
  d.decrypted = .ok padded

/-- One connection: `a` sends to the fingerprint it has for `b`, and `b` takes the message
as one of `a`. -/
def connection (a b : Party F) (recipientFp : String) (w : World) (m : Send F) :
    Delivery × World :=
  match sendDirect F a.identity recipientFp m.message m.ttl b.kyber.enc m.draws (.ok ())
      w.sender with
  | (⟨.error e, _⟩, sender) => (⟨none, .error e⟩, { w with sender := sender })
  | (⟨.ok sent, _⟩, sender) =>
    let (outcome, receiver) := decryptDirect F b.identity a.identity.fingerprint b.kyber
      (some a.kyber.enc) m.draws.coins sent.payload (.ok ()) w.receiver
    (⟨some sent.padded, outcome.result⟩, ⟨sender, receiver⟩)

/-- What the first connection leaves: one secret, and no message of it read or written. -/
structure Opened (a b : Party F) (recipientFp : String) (w : World) : Prop where
  rows : ∃ secret : Bytes,
    loadSession F.S w.sender (nullId F.S recipientFp) =
      some (started F.R recipientFp (nullId F.S recipientFp) a.identity.fingerprint true false
        secret) ∧
    loadSession F.S w.receiver (nullId F.S a.identity.fingerprint) =
      some (started F.R a.identity.fingerprint (nullId F.S a.identity.fingerprint)
        b.identity.fingerprint false false secret)

@[simp] theorem payload_ciphertext (ciphertextB64 msgHash : String)
    (initKyberCt ttl : Option String) :
    strField (p2pMessagePayload ciphertextB64 msgHash initKyberCt ttl) "ciphertext" =
      some ciphertextB64 := rfl

@[simp] theorem payload_seq (ciphertextB64 msgHash : String) (initKyberCt ttl : Option String) :
    messageSeq (p2pMessagePayload ciphertextB64 msgHash initKyberCt ttl) = 1 := by
  cases initKyberCt with
  | none => rfl
  | some ct => rfl

@[simp] theorem payload_initKyberCt (ciphertextB64 msgHash : String)
    (initKyberCt ttl : Option String) :
    strField (p2pMessagePayload ciphertextB64 msgHash initKyberCt ttl) "init_kyber_ct" =
      initKyberCt := by
  cases initKyberCt with
  | some ct => rfl
  | none =>
    cases ttl with
    | none => rfl
    | some text => rfl

section

variable {a b : Party F} {recipientFp : String} {w : World} {m : Send F}

theorem initSharedSecret_sent (correct : Correct F.R) (undoes : Undoes b.kyber.dec b.kyber.enc)
    {peerKyber : Option F.R.EncapsulationKey} {initCoins coins : F.R.Coins}
    {ciphertextB64 msgHash : String} {ttl : Option String} :
    initSharedSecret F b.kyber peerKyber coins (p2pMessagePayload ciphertextB64 msgHash
      (some (F.R.base64Encode (F.R.encapsulate b.kyber.enc initCoins).1.val)) ttl) =
      .ok (F.R.encapsulate b.kyber.enc initCoins).2 := by
  simp only [initSharedSecret, payload_initKyberCt, correct.base64, ciphertextTryFrom_val,
    undoes initCoins]

/-- The first connection opens a session on both sides and its message is not read. -/
theorem connection_first (correct : Correct F.R) (separates : Separates F.R)
    (undoes : Undoes b.kyber.dec b.kyber.enc)
    (noSender : loadSession F.S w.sender (nullId F.S recipientFp) = none)
    (noReceiver : loadSession F.S w.receiver (nullId F.S a.identity.fingerprint) = none)
    (short : (asBytes m.message).length < 65536) :
    ¬ (connection a b recipientFp w m).1.Faithful ∧
      Opened a b recipientFp (connection a b recipientFp w m).2 := by
  obtain ⟨padded, pads⟩ : ∃ padded, padMessageBucket m.message m.draws.padding = some padded :=
    Option.isSome_iff_exists.mp (padMessageBucket_isSome.mpr short)
  obtain ⟨ct, sealed, -⟩ := correct.aes (messageKey F.R (started F.R a.identity.fingerprint
    (nullId F.S a.identity.fingerprint) b.identity.fingerprint false false
    (F.R.encapsulate b.kyber.enc m.draws.initCoins).2.val).recvChainKey) m.draws.nonce
    (asBytes padded)
  have unread := decryptMessage_ahead correct separates b.kyber rfl rfl rfl sealed
  have encrypted := encryptFirst_sealed F.R (started F.R recipientFp (nullId F.S recipientFp)
    a.identity.fingerprint true false (F.R.encapsulate b.kyber.enc m.draws.initCoins).2.val) sealed
  simp only [connection, sendDirect, directSession_of_none noSender, pads, encryptWith, encrypted,
    Option.map_some, decryptDirect, incomingSession_of_none noReceiver
      (initSharedSecret_sent correct undoes), payload_ciphertext, payload_seq, Option.getD_some]
  generalize decryptMessage F.R _ _ b.kyber 1 = answer at unread
  obtain ⟨result, session⟩ := answer
  cases result with
  | error e =>
    refine ⟨?_, _, loadSession_saveSession, loadSession_saveSession⟩
    rintro ⟨_, -, read⟩
    cases read
  | ok text =>
    refine ⟨?_, _, loadSession_saveSession, loadSession_saveSession⟩
    rintro ⟨_, same, read⟩
    cases same
    cases read
    exact unread rfl

/-- Every later one delivers its message and leaves the two rows as they were. -/
theorem connection_later (correct : Correct F.R) (undoes : Undoes b.kyber.dec b.kyber.enc)
    (opened : Opened a b recipientFp w) (short : (asBytes m.message).length < 65536) :
    (connection a b recipientFp w m).1.Faithful ∧
      Opened a b recipientFp (connection a b recipientFp w m).2 := by
  obtain ⟨secret, ours, theirs⟩ := opened.rows
  obtain ⟨padded, pads⟩ : ∃ padded, padMessageBucket m.message m.draws.padding = some padded :=
    Option.isSome_iff_exists.mp (padMessageBucket_isSome.mpr short)
  obtain ⟨wire, after, encrypted, carries⟩ := encryptMessage_carries correct undoes
    (started F.R recipientFp (nullId F.S recipientFp) a.identity.fingerprint true false secret)
    rfl padded m.draws.coins m.draws.nonce
  obtain ⟨table, decrypted, -⟩ := decryptMessage_carried correct b.kyber
    (started F.R a.identity.fingerprint (nullId F.S a.identity.fingerprint)
      b.identity.fingerprint false false secret) rfl carries 1 (AList.notMem_empty _)
  simp only [connection, sendDirect, directSession_of_some ours, pads, encryptWith, encrypted,
    decryptDirect, incomingSession_of_some theirs, payload_ciphertext, payload_seq,
    Option.getD_some, decrypted]
  exact ⟨⟨padded, rfl, rfl⟩, secret, loadSession_saveSession, loadSession_saveSession⟩

end

/-- From empty tables on, a message is read exactly where its sender had a session when it
sent it: all of them are read only if there are none. -/
theorem delivered_iff_session (correct : Correct F.R) (separates : Separates F.R)
    (a b : Party F) (undoes : Undoes b.kyber.dec b.kyber.enc) (recipientFp : String)
    (w : World) (noSender : ∀ k, w.sender.sessions k = none)
    (noReceiver : ∀ k, w.receiver.sessions k = none) (sends : List (Send F))
    (short : ∀ m ∈ sends, (asBytes m.message).length < 65536) :
    Along (connection a b recipientFp)
        (fun w m => (connection a b recipientFp w m).1.Faithful ↔
          (loadSession F.S w.sender (nullId F.S recipientFp)).isSome) w sends ∧
      ((∀ d ∈ outputs (connection a b recipientFp) w sends, d.Faithful) ↔ sends = []) := by
  cases sends with
  | nil => simp [Along, outputs]
  | cons first rest =>
    obtain ⟨unread, opened⟩ : ¬ (connection a b recipientFp w first).1.Faithful ∧
        Opened a b recipientFp (connection a b recipientFp w first).2 :=
      connection_first correct separates undoes (noSender _) (noReceiver _)
        (short first List.mem_cons_self)
    have later := fun m member => short m (List.mem_cons_of_mem first member)
    refine ⟨⟨?_, ?_⟩, ?_⟩
    · simp [loadSession, noSender, unread]
    · have shorter : Along (connection a b recipientFp)
          (fun _ m => (asBytes m.message).length < 65536)
          (connection a b recipientFp w first).2 rest := (along_mem _ _).mpr later
      refine along_of_invariant (Opened a b recipientFp) ?_ ?_ opened shorter
      · intro w m opened short
        exact (connection_later correct undoes opened short).2
      · intro w m opened short
        obtain ⟨secret, ours, theirs⟩ := opened.rows
        simp [ours, (connection_later correct undoes opened short).1]
    · refine iff_of_false ?_ (List.cons_ne_nil first rest)
      intro all
      exact unread (all _ List.mem_cons_self)

theorem checksum_cons (x : UInt8) (rest : Bytes) :
    checksum (x :: rest) = x + 1 + checksum rest := by
  have shift : ∀ (b : Bytes) (start : UInt8),
      b.foldl (fun acc x => acc + x + 1) start = start + checksum b := by
    intro b
    induction b with
    | nil => intro start; simp [checksum]
    | cons y more ih =>
      intro start
      rw [List.foldl_cons, ih, show checksum (y :: more) = 0 + y + 1 + checksum more from ih _]
      simp only [UInt8.zero_add, UInt8.add_assoc]
  rw [checksum, List.foldl_cons, shift, UInt8.zero_add]

theorem checksum_append (front back : Bytes) :
    checksum (front ++ back) = checksum front + checksum back := by
  induction front with
  | nil => exact (UInt8.zero_add _).symm
  | cons x rest ih => simp only [List.cons_append, checksum_cons, ih, UInt8.add_assoc]

/-- The first byte of the next position's message key is another one. -/
theorem checksum_messageKey_next (chainKey : Bytes) :
    checksum (messageKey checksumPrimitives (nextChainKey checksumPrimitives chainKey)) =
      checksum (messageKey checksumPrimitives chainKey) + 224 := by
  have key : ∀ ck, messageKey checksumPrimitives ck =
      checksum (ck ++ asBytes "add-double-ratchet-v1-step") :: List.replicate 31 0 := fun _ => rfl
  have chain : nextChainKey checksumPrimitives chainKey =
      checksum (chainKey ++ asBytes "add-double-ratchet-v1-step") :: List.replicate 31 0 := rfl
  have rest : checksum (List.replicate 31 0) = 31 := by decide +kernel
  have info : checksum (asBytes "add-double-ratchet-v1-step") = 192 := by decide +kernel
  simp only [key, chain, checksum_cons, checksum_append, rest, info, UInt8.add_assoc]
  rfl

theorem checksumPrimitives_separates : Separates checksumPrimitives where
  tag := checksumPrimitives_tagged
  next chainKey nonce pt ct sealed opened := by
    cases sealed
    change checksumOpen _ nonce (checksumSeal _ nonce pt) = some pt at opened
    have cut : (checksumSeal (messageKey checksumPrimitives chainKey) nonce pt).take
        ((checksumSeal (messageKey checksumPrimitives chainKey) nonce pt).length - 16) = pt := by
      simp [checksumSeal, checksumTag]
    simp only [checksumOpen, cut] at opened
    split at opened
    · rename_i same
      have tags := List.append_cancel_left same
      have sums := List.replicate_right_injective (by decide : (16 : Nat) ≠ 0) tags
      simp only [checksum_append, checksum_messageKey_next] at sums
      have moved := (UInt8.add_left_inj _).mp ((UInt8.add_left_inj _).mp sums)
      exact absurd (UInt8.left_eq_add.mp moved) (by decide)
    · cases opened

def alice : Party (smallPlatform []) := ⟨⟨"A", "na"⟩, ⟨(3 : UInt8), (3 : UInt8)⟩⟩

def bob : Party (smallPlatform []) := ⟨⟨"B", "nb"⟩, ⟨(7 : UInt8), (7 : UInt8)⟩⟩

def strangers : World := ⟨.empty [1], .empty [2]⟩

def hello : Send (smallPlatform []) := ⟨"hello", none, smallDraws [] 4⟩

def question : Send (smallPlatform []) := ⟨"are you there?", some "2h", smallDraws [] 5⟩

theorem hello_short : (asBytes hello.message).length < 65536 := by decide +kernel

/-- The first connection of the two. -/
theorem connection_hello : ¬ (connection alice bob "B" strangers hello).1.Faithful ∧
    Opened alice bob "B" (connection alice bob "B" strangers hello).2 :=
  connection_first checksumPrimitives_correct checksumPrimitives_separates (fun _ => rfl) rfl rfl
    hello_short

/-- The greeting is lost, the question after it is read. -/
theorem delivered_iff_session_question :
    ¬ (connection alice bob "B" strangers hello).1.Faithful ∧
      (connection alice bob "B" (connection alice bob "B" strangers hello).2
        question).1.Faithful := by
  have short : ∀ m ∈ [hello, question], (asBytes m.message).length < 65536 := by decide +kernel
  obtain ⟨⟨-, second, -⟩, -⟩ := delivered_iff_session (F := smallPlatform [])
    checksumPrimitives_correct checksumPrimitives_separates alice bob (fun _ => rfl) "B" strangers
    (fun _ => rfl) (fun _ => rfl) [hello, question] short
  obtain ⟨lost, ⟨_, ours, -⟩⟩ := connection_hello
  exact ⟨lost, second.mpr (by rw [ours]; rfl)⟩

/-- A first message from empty tables is not read. -/
theorem first_message_unread :
    ¬ ∀ d ∈ outputs (connection alice bob "B") strangers [hello], d.Faithful := by
  intro all
  exact connection_hello.1 (all _ List.mem_cons_self)

end DirectDelivery
