import AddMessenger.RatchetConversation

/-!
# A first message read as a later one

`decryptMessage` tells the two formats of a message apart by its last two bytes. In a
first message these are the end of its tag, so they can name the length of an ML-KEM
ciphertext that is not there; and a first message of less than two bytes is shorter
than the least `decryptMessage` accepts.
-/

namespace Ratchet

open ByteStrings RatchetConversation

variable {P : Primitives}

/-- AES-GCM appends a tag of 16 bytes. -/
def Tagged (P : Primitives) : Prop :=
  ∀ key nonce ct pt, P.aesDecrypt key nonce ct = some pt → ct.length = pt.length + 16

theorem toText_ok {pt : Bytes} {text : String} (read : toText P pt = .ok text) :
    pt = asBytes text := by
  simp only [toText] at read
  split at read
  · rename_i got found
    cases read
    exact fromUtf8_eq_some found
  · cases read

theorem length_sealed (correct : Correct P) (tagged : Tagged P) {key nonce pt ct : Bytes}
    (sealed : P.aesEncrypt key nonce pt = some ct) : ct.length = pt.length + 16 := by
  obtain ⟨ct', sealed', opened⟩ := correct.aes key nonce pt
  rw [sealed] at sealed'
  cases sealed'
  exact tagged _ _ _ _ opened

/-- What is left of a body without an ML-KEM ciphertext is too short for its text. -/
theorem kyberDecrypt_unread (tagged : Tagged P) {s : RatchetState} {text : String}
    {nonce ct : Bytes} (length : ct.length = (asBytes text).length + 16) {kyberLen : Nat}
    (kp : MlKem1024Keypair P) (seq : UInt64) :
    (asText P (kyberDecrypt P s nonce ct kyberLen kp seq)).1 ≠ .ok text := by
  intro read
  cases parsed : ciphertextTryFrom (kyberPart ct kyberLen) with
  | none =>
    simp only [kyberDecrypt, parsed, asText] at read
    cases read
  | some kyberCt =>
    simp only [kyberDecrypt_eq P s nonce ct parsed] at read
    split at read
    · cases read
    · rename_i pt opened
      have same : pt = asBytes text := toText_ok read
      have short := tagged _ _ _ _ opened
      rw [same, aesPart, List.length_take] at short
      omega

/-- Where the last two bytes of a tag name no length in the body. -/
theorem not_hasKyber_iff {ct : Bytes} {size : Nat} (length : ct.length = size + 16) :
    ¬ HasKyber ct ↔ trailingLength ct = 0 ∨ size + 14 < trailingLength ct := by
  unfold HasKyber
  omega

theorem started_chains (peerFp peerNid ourFp peerFp' peerNid' ourFp' : String) (isInitiator : Bool)
    (secret : Bytes) :
    (started P peerFp' peerNid' ourFp' (!isInitiator) false secret).recvChainKey =
      (started P peerFp peerNid ourFp isInitiator false secret).sendChainKey := by
  cases isInitiator <;> rfl

/-- Reading a plain message at the current position of a session without stored keys. -/
theorem decryptMessage_current_iff (correct : Correct P) (tagged : Tagged P)
    (kp : MlKem1024Keypair P) {r : RatchetState} (start : r.recvMessageNumber = 0)
    (unused : r.skippedKeys = ∅) {text : String} {nonce : Nonce} {ct : Bytes}
    (sealed : P.aesEncrypt (messageKey P r.recvChainKey) nonce (asBytes text) = some ct) :
    (decryptMessage P r (P.base64Encode (nonce.val ++ ct)) kp 0).1 = .ok text ↔
      2 ≤ (asBytes text).length ∧
        (trailingLength ct = 0 ∨ (asBytes text).length + 14 < trailingLength ct) := by
  have length := length_sealed correct tagged sealed
  have absent : r.skippedKeys.lookup (toString (0 : UInt64)) = none := by
    rw [unused]
    exact AList.lookup_empty _
  rw [← not_hasKyber_iff length]
  simp only [decryptMessage, correct.base64, take_nonce, drop_nonce, absent, List.length_append,
    nonce.property]
  by_cases short : nonceSize + ct.length < nonceSize + 16 + 2
  · rw [if_pos short]
    refine iff_of_false (fun read => ?_) ?_
    · cases read
    · rintro ⟨two, -⟩
      omega
  · rw [if_neg short]
    have two : 2 ≤ (asBytes text).length := by omega
    rw [and_iff_right two]
    by_cases hasKyber : HasKyber ct
    · rw [if_pos hasKyber]
      exact iff_of_false (kyberDecrypt_unread tagged length kp 0) (not_not_intro hasKyber)
    · rw [if_neg hasKyber]
      refine iff_of_true ?_ hasKyber
      obtain ⟨ct', sealed', opened⟩ := correct.aes (messageKey P r.recvChainKey) nonce
        (asBytes text)
      rw [sealed] at sealed'
      cases sealed'
      have near : (0 : UInt64).toNat - r.recvMessageNumber.toNat = 0 := by
        rw [start]
        rfl
      rw [simpleDecrypt_eq P r nonce.val ct 0 (by rw [near]; decide), near]
      simp only [Function.iterate_zero, id_eq, opened, asText, toText, fromUtf8_asBytes]

theorem eq_started_of_new {peerFp peerNid ourFp : String} {isInitiator : Bool} {secret : Bytes}
    {s : RatchetState} (made : new P peerFp peerNid ourFp isInitiator secret = .ok s) :
    s = started P peerFp peerNid ourFp isInitiator false secret := by
  by_cases long : 32 ≤ secret.length
  · rw [new, newWithMode_started P peerFp peerNid ourFp isInitiator false long] at made
    exact (Except.ok.inj made).symm
  · rw [new, newWithMode, if_pos (Nat.lt_of_not_le long)] at made
    cases made

/-- The first message of a session, read with `decryptMessage` at position 0 by the fresh
session of its peer: it is read exactly if it has two bytes and the end of its tag is
no length. -/
theorem first_message_read_iff (correct : Correct P) (tagged : Tagged P)
    {peerFp peerNid ourFp peerFp' peerNid' ourFp' : String} {isInitiator : Bool} {secret : Bytes}
    {s r : RatchetState} (sender : new P peerFp peerNid ourFp isInitiator secret = .ok s)
    (receiver : new P peerFp' peerNid' ourFp' (!isInitiator) secret = .ok r) (text : String)
    (nonce : Nonce) (kp : MlKem1024Keypair P) :
    ∃ ct, (encryptFirst P s text nonce).1 = .ok (nonce.val ++ ct) ∧
      ((decryptMessage P r (P.base64Encode (nonce.val ++ ct)) kp 0).1 = .ok text ↔
        2 ≤ (asBytes text).length ∧
          (trailingLength ct = 0 ∨ (asBytes text).length + 14 < trailingLength ct)) := by
  obtain rfl := eq_started_of_new sender
  obtain rfl := eq_started_of_new receiver
  obtain ⟨ct, sealed, -⟩ := correct.aes (messageKey P (started P peerFp peerNid ourFp isInitiator
    false secret).sendChainKey) nonce (asBytes text)
  refine ⟨ct, ?_, ?_⟩
  · rw [encryptFirst_sealed P _ sealed]
  · rw [← started_chains peerFp peerNid ourFp peerFp' peerNid' ourFp'] at sealed
    exact decryptMessage_current_iff correct tagged kp rfl rfl sealed

theorem checksumPrimitives_tagged : Tagged checksumPrimitives := by
  intro key nonce ct pt opened
  change checksumOpen key nonce ct = some pt at opened
  simp only [checksumOpen] at opened
  split at opened
  · rename_i whole
    cases opened
    have lengths := congrArg List.length whole
    rwa [checksumSeal, checksumTag, List.length_append, List.length_replicate] at lengths
  · cases opened

def firstSender : RatchetState := started checksumPrimitives "B" "nb" "A" true false checksumSecret

def firstReceiver : RatchetState :=
  started checksumPrimitives "A" "na" "B" false false checksumSecret

def firstKyber : MlKem1024Keypair checksumPrimitives := ⟨(3 : UInt8), (3 : UInt8)⟩

/-- Under this nonce the tag of 300 letters ends with the length 257. -/
def misleadingNonce : Nonce := ⟨30 :: List.replicate 11 9, rfl⟩

def threeHundred : String := String.ofList (List.replicate 300 'a')

/-- The sealed text and tag of a first message of the small instance. -/
def firstSealed (text : String) (nonce : Nonce) : Bytes :=
  checksumSeal (messageKey checksumPrimitives firstSender.sendChainKey) nonce (asBytes text)

/-- The first message with this text is not read. -/
def Misread (text : String) (nonce : Nonce) : Prop :=
  (encryptFirst checksumPrimitives firstSender text nonce).1 =
      .ok (nonce.val ++ firstSealed text nonce) ∧
    (decryptMessage checksumPrimitives firstReceiver
      (checksumPrimitives.base64Encode (nonce.val ++ firstSealed text nonce)) firstKyber 0).1 ≠
      .ok text

theorem misread_iff (text : String) (nonce : Nonce) :
    Misread text nonce ↔ ¬ (2 ≤ (asBytes text).length ∧
      (trailingLength (firstSealed text nonce) = 0 ∨
        (asBytes text).length + 14 < trailingLength (firstSealed text nonce))) := by
  have sealed : checksumPrimitives.aesEncrypt
      (messageKey checksumPrimitives firstReceiver.recvChainKey) nonce (asBytes text) =
      some (firstSealed text nonce) := rfl
  rw [Misread, and_iff_right (by rw [encryptFirst_sealed checksumPrimitives firstSender sealed]),
    Ne, decryptMessage_current_iff checksumPrimitives_correct checksumPrimitives_tagged firstKyber
      rfl rfl sealed]

theorem first_message_misread :
    new checksumPrimitives "B" "nb" "A" true checksumSecret = .ok firstSender ∧
    new checksumPrimitives "A" "na" "B" false checksumSecret = .ok firstReceiver ∧
    Misread "" checksumNonce ∧ Misread "?" checksumNonce ∧
    Misread threeHundred misleadingNonce := by
  have long : 32 ≤ checksumSecret.length := le_of_eq List.length_replicate.symm
  refine ⟨newWithMode_started _ _ _ _ _ _ long, newWithMode_started _ _ _ _ _ _ long, ?_⟩
  simp only [misread_iff]
  exact ⟨by decide, by decide, by decide +kernel⟩

theorem first_message_read_iff_hi :
    ∃ ct, (encryptFirst checksumPrimitives firstSender "hi" checksumNonce).1 =
        .ok (checksumNonce.val ++ ct) ∧
      ((decryptMessage checksumPrimitives firstReceiver (latin1Encode (checksumNonce.val ++ ct))
          firstKyber 0).1 = .ok "hi" ↔
        2 ≤ (asBytes "hi").length ∧
          (trailingLength ct = 0 ∨ (asBytes "hi").length + 14 < trailingLength ct)) := by
  have long : 32 ≤ checksumSecret.length := le_of_eq List.length_replicate.symm
  exact first_message_read_iff checksumPrimitives_correct checksumPrimitives_tagged
    (newWithMode_started _ "B" "nb" "A" true false long)
    (newWithMode_started _ "A" "na" "B" false false long) "hi" checksumNonce firstKyber

end Ratchet
