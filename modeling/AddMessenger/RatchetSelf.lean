import AddMessenger.DirectDelivery
import AddMessenger.RatchetReplay

/-!
# A session that writes to itself

A session of `new_self` encrypts its messages and decrypts them again. Its two ends are
one chain that encryption moves and decryption does not: a message is decrypted with the
chain as every encryption up to then has left it, its own among them.
-/

namespace RatchetSelf

open ByteStrings Mealy Ratchet RatchetConversation RatchetReplay

variable {P : Primitives}

/-- A ciphertext that was not decrypted yet, with its text. -/
structure Letter where
  text : String
  wire : Bytes
  first : Bool

structure Desk where
  session : RatchetState
  pending : List Letter
  begun : Bool

inductive Event (P : Primitives) where
  | send (text : String) (coins : P.Coins) (nonce : Nonce)
  | receive (seq : UInt64)

def enqueue (pending : List Letter) (text : String) (first : Bool) :
    Except CryptoError Bytes → List Letter
  | .ok wire => pending ++ [⟨text, wire, first⟩]
  | .error _ => pending

/-- The first message is encrypted with `encryptFirst`, the others with `encryptMessage`
to the session's own key; each is decrypted with the counterpart, in order. -/
def step (kp : MlKem1024Keypair P) (d : Desk) : Event P → RatchetConversation.Answer × Desk
  | .send text coins nonce =>
    let (result, s) :=
      if d.begun then encryptMessage P d.session text kp.enc coins nonce
      else encryptFirst P d.session text nonce
    (.sent result, ⟨s, enqueue d.pending text (!d.begun) result, true⟩)
  | .receive seq =>
    match d.pending with
    | [] => (.idle, d)
    | m :: rest =>
      let (result, s) :=
        if m.first then decryptFirst P d.session (P.base64Encode m.wire)
        else decryptMessage P d.session (P.base64Encode m.wire) kp seq
      (.received m.text result, { d with session := s, pending := rest })

/-- The message opens with the chain as it stands, or with the key the table has for the
number it is given. -/
def Opens (kp : MlKem1024Keypair P) (s : RatchetState) (seq : UInt64) (m : Letter) : Prop :=
  if m.first then
    P.aesDecrypt (messageKey P s.sendChainKey) (m.wire.take nonceSize) (m.wire.drop nonceSize) =
      some (asBytes m.text)
  else
    match s.skippedKeys.lookup (toString seq) with
    | some stored =>
      P.aesDecrypt stored (m.wire.take nonceSize) (m.wire.drop nonceSize) = some (asBytes m.text)
    | none =>
      ∃ kyberCt, ciphertextTryFrom (kyberPart (m.wire.drop nonceSize) 1568) = some kyberCt ∧
        P.aesDecrypt (messageKey P (s.sendChainKey ++ (P.decapsulate kp.dec kyberCt).val))
          (m.wire.take nonceSize) (aesPart (m.wire.drop nonceSize) 1568) = some (asBytes m.text)

def OpensHere (kp : MlKem1024Keypair P) (d : Desk) : Event P → Prop
  | .send .. => True
  | .receive seq => ∀ m rest, d.pending = m :: rest → Opens kp d.session seq m

/-- What the two encryptions put on the wire. -/
inductive Framed : Letter → Prop where
  | first (text : String) (nonce : Nonce) (ct : Bytes) (tagged : 16 ≤ ct.length) :
    Framed ⟨text, nonce.val ++ ct, true⟩
  | later (text : String) (nonce : Nonce) (aesCt : Bytes) (kyberCt : MlKem1024Ciphertext) :
    Framed ⟨text, nonce.val ++ mixedBody aesCt kyberCt, false⟩

/-- Both ends of the session are one chain. -/
structure Joined (s : RatchetState) : Prop where
  selfMode : s.selfMode = true
  oneChain : s.recvChainKey = s.sendChainKey

structure Tidy (d : Desk) : Prop where
  joined : Joined d.session
  framed : ∀ m ∈ d.pending, Framed m

section

variable {s : RatchetState}

theorem joined_advanceSend (joined : Joined s) (newCk : Bytes) : Joined (advanceSend s newCk) where
  selfMode := joined.selfMode
  oneChain := by rw [advanceSend, joined.selfMode, if_pos rfl]

theorem advanceRecv_joined (joined : Joined s) (newCk : Bytes) : advanceRecv s newCk = s := by
  rw [advanceRecv, if_pos joined.selfMode]

theorem joined_keepKey (joined : Joined s) (newCk : Bytes) (seq : UInt64) (msgKey : Bytes) :
    Joined (keepKey P s newCk seq msgKey) := by
  obtain ⟨table, kept, -⟩ := keepKey_frame P s newCk seq msgKey
  rw [kept, advanceRecv_joined joined]
  exact ⟨joined.selfMode, joined.oneChain⟩

/-- A first message is opened with the chain as it stands, whatever number comes next. -/
theorem decryptFirst_framed (correct : Correct P) (joined : Joined s) (nonce : Nonce) {ct : Bytes}
    (tagged : 16 ≤ ct.length) :
    decryptFirst P s (P.base64Encode (nonce.val ++ ct)) =
      match P.aesDecrypt (messageKey P s.sendChainKey) nonce ct with
      | none => (.error (.decryptFailed "AES-GCM: aead::Error"), s)
      | some pt => (toText P pt,
          keepKey P s (nextChainKey P s.sendChainKey) 0 (messageKey P s.sendChainKey)) := by
  have long : ¬ (nonce.val ++ ct).length < nonceSize + 16 := by
    rw [List.length_append, nonce.property]
    omega
  have near : (0 : UInt64).toNat - s.recvMessageNumber.toNat = 0 := Nat.zero_sub _
  simp only [decryptFirst, correct.base64, if_neg long, take_nonce, drop_nonce]
  rw [simpleDecrypt_eq P s nonce.val ct 0 (by rw [near]; exact Nat.zero_le _), near]
  simp only [Function.iterate_zero, id_eq, joined.oneChain, advanceRecv_joined joined]
  cases P.aesDecrypt (messageKey P s.sendChainKey) nonce ct with
  | none => rfl
  | some pt => rfl

/-- One delivery: whether it is read, and that the chain stays one. -/
theorem decrypt_framed (correct : Correct P) (joined : Joined s) {m : Letter} (framed : Framed m)
    (kp : MlKem1024Keypair P) (seq : UInt64) :
    ((if m.first then decryptFirst P s (P.base64Encode m.wire)
        else decryptMessage P s (P.base64Encode m.wire) kp seq).1 = .ok m.text ↔
      Opens kp s seq m) ∧
    Joined (if m.first then decryptFirst P s (P.base64Encode m.wire)
      else decryptMessage P s (P.base64Encode m.wire) kp seq).2 := by
  cases framed with
  | first text nonce ct tagged =>
    simp only [if_true, Opens, take_nonce, drop_nonce,
      decryptFirst_framed correct joined nonce tagged]
    cases P.aesDecrypt (messageKey P s.sendChainKey) nonce ct with
    | none => exact ⟨by simp, joined⟩
    | some pt =>
      exact ⟨by simp only [toText_eq_ok_iff, Option.some.injEq], joined_keepKey joined _ _ _⟩
  | later text nonce aesCt kyberCt =>
    obtain ⟨aes, kyber⟩ := parts_append aesCt kyberCt
      (show (toBeBytes16 kyberCt.val.length).length = 2 from rfl)
    rw [← mixedBody] at aes kyber
    simp only [Bool.false_eq_true, if_false, Opens, take_nonce, drop_nonce, aes, kyber,
      ciphertextTryFrom_val, Option.some.injEq, exists_eq_left']
    cases kept : s.skippedKeys.lookup (toString seq) with
    | some stored =>
      refine ⟨stored_reads_iff correct kept, ?_⟩
      rw [decryptMessage_stored correct nonce aesCt kyberCt kp kept, storedDecrypt]
      split
      · exact joined
      · exact ⟨joined.selfMode, joined.oneChain⟩
    | none =>
      refine ⟨?_, ?_⟩
      · rw [← joined.oneChain]
        exact mixed_reads_iff correct kept
      · rw [decryptMessage_mixed correct nonce aesCt kyberCt kp kept]
        dsimp only
        split
        · rw [advanceRecv_joined joined]
          exact joined
        · exact joined_keepKey joined _ _ _

end

theorem encrypt_framed (correct : Correct P) (tagged : Tagged P) (kp : MlKem1024Keypair P)
    {d : Desk} (joined : Joined d.session) (text : String) (coins : P.Coins) (nonce : Nonce) :
    ∃ wire s, (if d.begun then encryptMessage P d.session text kp.enc coins nonce
        else encryptFirst P d.session text nonce) = (.ok wire, s) ∧ Joined s ∧
      Framed ⟨text, wire, !d.begun⟩ := by
  cases begun : d.begun with
  | false =>
    obtain ⟨ct, sealed, -⟩ := correct.aes (messageKey P d.session.sendChainKey) nonce (asBytes text)
    have length := length_sealed correct tagged sealed
    refine ⟨_, _, encryptFirst_sealed P d.session sealed, ?_, ?_⟩
    · have moved := joined_advanceSend joined (nextChainKey P d.session.sendChainKey)
      exact ⟨moved.selfMode, moved.oneChain⟩
    · exact .first text nonce ct (by omega)
  | true =>
    obtain ⟨ct, sealed, -⟩ := correct.aes
      (messageKey P (d.session.sendChainKey ++ (P.encapsulate kp.enc coins).2.val)) nonce
      (asBytes text)
    obtain ⟨wire, s, encrypted⟩ := encryptMessage_sealed P d.session sealed
    have moved := joined_advanceSend joined
      (nextChainKey P (d.session.sendChainKey ++ (P.encapsulate kp.enc coins).2.val))
    have stays : Joined s := by
      simp only [encryptMessage, deriveMessageKey_eq, sealed] at encrypted
      cases encrypted
      exact ⟨moved.selfMode, moved.oneChain⟩
    obtain ⟨aesCt, -, rfl⟩ := encryptMessage_wire encrypted
    exact ⟨_, s, encrypted, stays, .later text nonce aesCt _⟩

theorem step_tidy (correct : Correct P) (tagged : Tagged P) (kp : MlKem1024Keypair P) (d : Desk)
    (event : Event P) (tidy : Tidy d) :
    Tidy (step kp d event).2 ∧ ((step kp d event).1.Faithful ↔ OpensHere kp d event) := by
  cases event with
  | send text coins nonce =>
    obtain ⟨wire, s, encrypted, joined, framed⟩ :=
      encrypt_framed correct tagged kp tidy.joined text coins nonce
    simp only [step, encrypted, enqueue, OpensHere]
    refine ⟨⟨joined, fun m member => ?_⟩, iff_of_true ⟨wire, rfl⟩ trivial⟩
    rcases List.mem_append.mp member with old | new
    · exact tidy.framed m old
    · rw [List.mem_singleton.mp new]
      exact framed
  | receive seq =>
    cases pending : d.pending with
    | nil =>
      simp only [step, pending, OpensHere]
      exact ⟨tidy, iff_of_true trivial nofun⟩
    | cons m rest =>
      have framed := tidy.framed
      rw [pending] at framed
      obtain ⟨read, joined⟩ :=
        decrypt_framed correct tidy.joined (framed m List.mem_cons_self) kp seq
      simp only [step, pending, OpensHere, List.cons.injEq]
      refine ⟨⟨joined, fun other member => framed other (List.mem_cons_of_mem m member)⟩, ?_⟩
      refine read.trans ⟨?_, fun here => here m rest ⟨rfl, rfl⟩⟩
      rintro opens _ _ ⟨rfl, rfl⟩
      exact opens

def opened (s : RatchetState) : Desk := ⟨s, [], false⟩

theorem tidy_started (peerFp peerNid ourFp : String) (secret : Bytes) :
    Tidy (opened (started P peerFp peerNid ourFp true true secret)) where
  joined := ⟨rfl, rfl⟩
  framed := fun _ none => absurd none List.not_mem_nil

/-- From a tidy desk on, everything is read exactly if everything opens where it is met. -/
theorem faithful_iff_opens (correct : Correct P) (tagged : Tagged P) (kp : MlKem1024Keypair P)
    {d : Desk} (tidy : Tidy d) (events : List (Event P)) :
    (∀ answer ∈ outputs (step kp) d events, answer.Faithful) ↔
      Along (step kp) (OpensHere kp) d events :=
  outputs_iff_along Tidy (fun d event tidy => (step_tidy correct tagged kp d event tidy).1)
    (fun d event tidy => (step_tidy correct tagged kp d event tidy).2) tidy events

/-- A first message decrypted right after its encryption meets the chain one position on. -/
theorem turn_unread (correct : Correct P) (separates : DirectDelivery.Separates P)
    (kp : MlKem1024Keypair P) (s : RatchetState) (text : String) (coins : P.Coins) (nonce : Nonce)
    (seq : UInt64) (rest : List (Event P)) :
    ¬ Along (step kp) (OpensHere kp) (opened s)
      (.send text coins nonce :: .receive seq :: rest) := by
  rintro ⟨-, here, -⟩
  obtain ⟨ct, sealed, -⟩ := correct.aes (messageKey P s.sendChainKey) nonce (asBytes text)
  have sent : (step kp (opened s) (.send text coins nonce)).2 =
      ⟨{ advanceSend s (nextChainKey P s.sendChainKey) with
        sendMessageNumber := s.sendMessageNumber + 1 },
        [⟨text, nonce.val ++ ct, true⟩], true⟩ := by
    simp only [step, opened, Bool.false_eq_true, if_false, encryptFirst_sealed P s sealed, enqueue,
      List.nil_append, Bool.not_false]
  rw [sent] at here
  have opens := here _ [] rfl
  simp only [Opens, if_true, take_nonce, drop_nonce, advanceSend] at opens
  exact separates.next _ _ _ _ sealed opens

/-- A session of `new_self` reads its own messages, encrypted and decrypted in any
interleaving, exactly if each opens where the chain stands when it is decrypted. A first
message decrypted at once is never read. -/
theorem self_messages_read_iff (correct : Correct P) (tagged : Tagged P) (kp : MlKem1024Keypair P)
    (peerFp peerNid ourFp : String) {secret : Bytes} (long : 32 ≤ secret.length) :
    ∃ s, newSelf P peerFp peerNid ourFp secret = .ok s ∧
      (∀ events, (∀ answer ∈ outputs (step kp) (opened s) events, answer.Faithful) ↔
        Along (step kp) (OpensHere kp) (opened s) events) ∧
      (DirectDelivery.Separates P → ∀ text coins nonce seq rest,
        ¬ ∀ answer ∈ outputs (step kp) (opened s) (.send text coins nonce :: .receive seq :: rest),
          answer.Faithful) := by
  refine ⟨_, newWithMode_started P peerFp peerNid ourFp true true long, ?_⟩
  have law := faithful_iff_opens correct tagged kp
    (tidy_started (P := P) peerFp peerNid ourFp secret)
  refine ⟨law, fun separates text coins nonce seq rest faithful => ?_⟩
  exact turn_unread correct separates kp _ text coins nonce seq rest ((law _).mp faithful)

def diary : RatchetState := started checksumPrimitives "me" "NN-me" "me" true true checksumSecret

def note : List (Event checksumPrimitives) := [.send "note" (1 : UInt8) checksumNonce, .receive 0]

/-- A session that encrypts one note to itself and decrypts it does not read it. -/
theorem note_unread :
    newSelf checksumPrimitives "me" "NN-me" "me" checksumSecret = .ok diary ∧
    ¬ ∀ answer ∈ outputs (step firstKyber) (opened diary) note, answer.Faithful := by
  have long : 32 ≤ checksumSecret.length := le_of_eq List.length_replicate.symm
  refine ⟨newWithMode_started _ _ _ _ _ _ long, fun faithful => ?_⟩
  have opens := (faithful_iff_opens checksumPrimitives_correct checksumPrimitives_tagged firstKyber
    (tidy_started "me" "NN-me" "me" checksumSecret) note).mp faithful
  exact turn_unread checksumPrimitives_correct DirectDelivery.checksumPrimitives_separates
    firstKyber diary "note" (1 : UInt8) checksumNonce 0 [] opens

theorem self_messages_read_iff_note :
    ∃ s, newSelf checksumPrimitives "me" "NN-me" "me" checksumSecret = .ok s ∧
      ¬ ∀ answer ∈ outputs (step firstKyber) (opened s) note, answer.Faithful := by
  have long : 32 ≤ checksumSecret.length := le_of_eq List.length_replicate.symm
  obtain ⟨s, made, -, unread⟩ := self_messages_read_iff checksumPrimitives_correct
    checksumPrimitives_tagged firstKyber "me" "NN-me" "me" long
  have atOnce := unread DirectDelivery.checksumPrimitives_separates "note" (1 : UInt8)
    checksumNonce 0 []
  exact ⟨s, made, atOnce⟩

end RatchetSelf
