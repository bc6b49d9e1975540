import AddMessenger.RatchetFirst
import AddMessenger.RatchetRejection

/-!
# A message with an ML-KEM ciphertext, delivered twice

The key of an accepted message is kept under its number, and a message whose number
has a key is opened with it. What is opened then is the whole body: of a message of
`encryptMessage`, the AES part and the ML-KEM ciphertext after it.
-/

namespace RatchetReplay

open ByteStrings Mealy Ratchet RatchetConversation RatchetRejection

variable {P : Primitives}

/-- The body of a message: the AES part, the ML-KEM ciphertext and its length. -/
def mixedBody (aesCt : Bytes) (kyberCt : MlKem1024Ciphertext) : Bytes :=
  aesCt ++ kyberCt.val ++ toBeBytes16 kyberCt.val.length

theorem length_mixedBody (aesCt : Bytes) (kyberCt : MlKem1024Ciphertext) :
    (mixedBody aesCt kyberCt).length = aesCt.length + 1570 := by
  simp only [mixedBody, List.length_append, kyberCt.property, toBeBytes16, List.length_cons,
    List.length_nil]

/-- What `encryptMessage` puts on the wire. -/
theorem encryptMessage_wire {a a' : RatchetState} {text : String} {enc : P.EncapsulationKey}
    {coins : P.Coins} {nonce : Nonce} {wire : Bytes}
    (encrypted : encryptMessage P a text enc coins nonce = (.ok wire, a')) :
    ∃ aesCt, P.aesEncrypt (messageKey P (a.sendChainKey ++ (P.encapsulate enc coins).2.val)) nonce
        (asBytes text) = some aesCt ∧
      wire = nonce.val ++ mixedBody aesCt (P.encapsulate enc coins).1 := by
  simp only [encryptMessage, deriveMessageKey_eq] at encrypted
  split at encrypted
  · cases encrypted
  · rename_i aesCt sealed
    cases encrypted
    exact ⟨aesCt, sealed, by simp only [mixedBody, List.append_assoc]⟩

theorem toText_eq_ok_iff {pt : Bytes} {text : String} :
    toText P pt = .ok text ↔ pt = asBytes text := by
  constructor
  · exact toText_ok
  · rintro rfl
    rw [toText, fromUtf8_asBytes]

section

variable (correct : Correct P) (nonce : Nonce) (aesCt : Bytes) (kyberCt : MlKem1024Ciphertext)
  (kp : MlKem1024Keypair P) {s : RatchetState} {seq : UInt64}
include correct

theorem decryptMessage_stored {stored : Bytes}
    (kept : s.skippedKeys.lookup (toString seq) = some stored) :
    decryptMessage P s (P.base64Encode (nonce.val ++ mixedBody aesCt kyberCt)) kp seq =
      storedDecrypt P s stored nonce (mixedBody aesCt kyberCt) seq := by
  have long : ¬ (nonce.val ++ mixedBody aesCt kyberCt).length < nonceSize + 16 + 2 := by
    rw [List.length_append, length_mixedBody, nonce.property]
    omega
  simp only [decryptMessage, correct.base64, if_neg long, take_nonce, drop_nonce, kept]

theorem decryptMessage_mixed (absent : s.skippedKeys.lookup (toString seq) = none) :
    decryptMessage P s (P.base64Encode (nonce.val ++ mixedBody aesCt kyberCt)) kp seq =
      let mixed := s.recvChainKey ++ (P.decapsulate kp.dec kyberCt).val
      match P.aesDecrypt (messageKey P mixed) nonce aesCt with
      | none => (.error (.decryptFailed "AES-GCM: aead::Error"),
          advanceRecv s (nextChainKey P mixed))
      | some pt => (toText P pt, keepKey P s (nextChainKey P mixed) seq (messageKey P mixed)) :=
  decryptMessage_unstored correct nonce aesCt kyberCt kp absent

end

/-- The message opens under the key that its ML-KEM secret gives at the present chain
position, and the step leaves the chain key as it is. -/
def OpensInPlace (kp : MlKem1024Keypair P) (nonce : Nonce) (aesCt : Bytes)
    (kyberCt : MlKem1024Ciphertext) (text : String) (s : RatchetState) : Prop :=
  P.aesDecrypt (messageKey P (s.recvChainKey ++ (P.decapsulate kp.dec kyberCt).val)) nonce aesCt =
      some (asBytes text) ∧
    Still s (nextChainKey P (s.recvChainKey ++ (P.decapsulate kp.dec kyberCt).val))

section

variable (correct : Correct P) {nonce : Nonce} {aesCt : Bytes} {kyberCt : MlKem1024Ciphertext}
  {kp : MlKem1024Keypair P} {s : RatchetState} {seq : UInt64} {text : String}
include correct

theorem stored_reads_iff {stored : Bytes}
    (kept : s.skippedKeys.lookup (toString seq) = some stored) :
    (decryptMessage P s (P.base64Encode (nonce.val ++ mixedBody aesCt kyberCt)) kp seq).1 =
        .ok text ↔
      P.aesDecrypt stored nonce (mixedBody aesCt kyberCt) = some (asBytes text) := by
  rw [decryptMessage_stored correct nonce aesCt kyberCt kp kept, storedDecrypt]
  cases P.aesDecrypt stored nonce (mixedBody aesCt kyberCt) with
  | none => simp
  | some pt => simp only [toText_eq_ok_iff, Option.some.injEq]

theorem mixed_reads_iff (absent : s.skippedKeys.lookup (toString seq) = none) :
    (decryptMessage P s (P.base64Encode (nonce.val ++ mixedBody aesCt kyberCt)) kp seq).1 =
        .ok text ↔
      P.aesDecrypt (messageKey P (s.recvChainKey ++ (P.decapsulate kp.dec kyberCt).val)) nonce
        aesCt = some (asBytes text) := by
  rw [decryptMessage_mixed correct nonce aesCt kyberCt kp absent]
  dsimp only
  cases P.aesDecrypt (messageKey P (s.recvChainKey ++ (P.decapsulate kp.dec kyberCt).val)) nonce
      aesCt with
  | none => simp
  | some pt => simp only [toText_eq_ok_iff, Option.some.injEq]

/-- The two halves of the replay law, in any state. -/
theorem replay_iff :
    ((decryptMessage P s (P.base64Encode (nonce.val ++ mixedBody aesCt kyberCt)) kp seq).1 =
        .ok text ∧
      (decryptMessage P s (P.base64Encode (nonce.val ++ mixedBody aesCt kyberCt)) kp
        seq).2.recvChainKey = s.recvChainKey) ↔
      (s.skippedKeys.lookup (toString seq) = none ∧ OpensInPlace kp nonce aesCt kyberCt text s) ∨
      ∃ stored, s.skippedKeys.lookup (toString seq) = some stored ∧
        P.aesDecrypt stored nonce (mixedBody aesCt kyberCt) = some (asBytes text) := by
  cases kept : s.skippedKeys.lookup (toString seq) with
  | some stored =>
    rw [stored_reads_iff correct kept]
    have still : (decryptMessage P s (P.base64Encode (nonce.val ++ mixedBody aesCt kyberCt)) kp
        seq).2.recvChainKey = s.recvChainKey := by
      rw [decryptMessage_stored correct nonce aesCt kyberCt kp kept, storedDecrypt]
      split <;> rfl
    simp [still]
  | none =>
    rw [mixed_reads_iff correct kept, OpensInPlace]
    simp only [true_and, reduceCtorEq, false_and, exists_const, or_false]
    refine and_congr_right fun opened => ?_
    obtain ⟨table, after, -⟩ := keepKey_frame P s
      (nextChainKey P (s.recvChainKey ++ (P.decapsulate kp.dec kyberCt).val)) seq
      (messageKey P (s.recvChainKey ++ (P.decapsulate kp.dec kyberCt).val))
    rw [decryptMessage_mixed correct nonce aesCt kyberCt kp kept]
    simp only [opened, after]
    rw [← advanceRecv_eq_self]
    constructor
    · intro same
      rw [RatchetState.ext_iff]
      exact ⟨rfl, rfl, rfl, rfl, rfl, rfl, rfl, same, rfl, rfl, rfl⟩
    · intro same
      exact congrArg RatchetState.recvChainKey same

end

/-- A receiver in step with its sender reads what the sender has encrypted. -/
theorem read_in_step (correct : Correct P) {a a' s : RatchetState}
    (inStep : a.sendChainKey = s.recvChainKey) {kp : MlKem1024Keypair P}
    (undoes : Undoes kp.dec kp.enc) {text : String} {coins : P.Coins} {nonce : Nonce} {wire : Bytes}
    (sent : encryptMessage P a text kp.enc coins nonce = (.ok wire, a')) {seq : UInt64}
    (absent : s.skippedKeys.lookup (toString seq) = none) :
    (decryptMessage P s (P.base64Encode wire) kp seq).1 = .ok text := by
  obtain ⟨aesCt, sealed, rfl⟩ := encryptMessage_wire sent
  obtain ⟨aesCt', sealed', opened⟩ := correct.aes
    (messageKey P (a.sendChainKey ++ (P.encapsulate kp.enc coins).2.val)) nonce (asBytes text)
  rw [sealed] at sealed'
  cases sealed'
  rw [mixed_reads_iff correct absent, undoes coins, ← inStep]
  exact opened

/-- The keys of `s` are still there. -/
def KeepsKeys (s t : RatchetState) : Prop :=
  ∀ k key, s.skippedKeys.lookup k = some key → t.skippedKeys.lookup k = some key

theorem keepKey_of_room {s : RatchetState} (room : s.skippedKeys.keys.length < maxSkippedKeys)
    (newCk : Bytes) (seq : UInt64) (msgKey : Bytes) :
    (keepKey P s newCk seq msgKey).skippedKeys = s.skippedKeys.insert (toString seq) msgKey := by
  have erased := List.length_erase_le (l := s.skippedKeys.keys) (a := toString seq)
  have fits : (storeKey { advanceRecv s newCk with
      recvMessageNumber := s.recvMessageNumber + 1 } seq msgKey).skippedKeys.keys.length ≤
      maxSkippedKeys := by
    simp only [storeKey, advanceRecv, AList.keys_insert, List.length_cons]
    omega
  have unpruned := pruneSkippedKeys_of_room P fits
  exact congrArg RatchetState.skippedKeys unpruned

/-- A message with an ML-KEM ciphertext, whatever becomes of it, adds at most its own key. -/
theorem mixed_keeps_keys {s : RatchetState} {ciphertextB64 : String} {raw : Bytes}
    (decoded : P.base64Decode ciphertextB64 = .ok raw) (mixed : HasKyber (raw.drop nonceSize))
    (room : s.skippedKeys.keys.length < maxSkippedKeys) (kp : MlKem1024Keypair P) (seq : UInt64) :
    KeepsKeys s (decryptMessage P s ciphertextB64 kp seq).2 ∧
      (decryptMessage P s ciphertextB64 kp seq).2.skippedKeys.keys.length ≤
        s.skippedKeys.keys.length + 1 := by
  have unmoved : ∀ t : RatchetState, t.skippedKeys = s.skippedKeys → KeepsKeys s t ∧
      t.skippedKeys.keys.length ≤ s.skippedKeys.keys.length + 1 := by
    intro t same
    rw [KeepsKeys, same]
    exact ⟨fun _ _ kept => kept, Nat.le_succ _⟩
  simp only [decryptMessage, decoded, if_pos mixed]
  split
  · exact unmoved s rfl
  · cases kept : s.skippedKeys.lookup (toString seq) with
    | some stored =>
      simp only [storedDecrypt]
      split
      · exact unmoved s rfl
      · exact unmoved _ rfl
    | none =>
      cases parsed : ciphertextTryFrom (kyberPart (raw.drop nonceSize)
          (trailingLength (raw.drop nonceSize))) with
      | none =>
        simp only [kyberDecrypt, parsed, asText]
        exact unmoved s rfl
      | some kyberCt =>
        simp only [kyberDecrypt_eq P s _ _ parsed]
        split
        · exact unmoved _ rfl
        · have grown := List.length_erase_le (l := s.skippedKeys.keys) (a := toString seq)
          simp only [asText, KeepsKeys, keepKey_of_room room, AList.keys_insert, List.length_cons]
          refine ⟨fun k key old => ?_, Nat.succ_le_succ grown⟩
          have other : k ≠ toString seq := by
            rintro rfl
            rw [kept] at old
            cases old
          rw [AList.lookup_insert_ne other, old]

/-- A delivery of a message with an ML-KEM ciphertext. -/
def IsMixed (P : Primitives) : Call P → Prop
  | .decryptMessage ciphertextB64 _ _ =>
    ∃ raw, P.base64Decode ciphertextB64 = .ok raw ∧ HasKyber (raw.drop nonceSize)
  | _ => False

theorem run_keeps_keys {s : RatchetState} {calls : List (Call P)}
    (mixed : ∀ call ∈ calls, IsMixed P call)
    (room : s.skippedKeys.keys.length + calls.length ≤ maxSkippedKeys) :
    KeepsKeys s (final (step P) s calls) := by
  induction calls generalizing s with
  | nil => exact fun _ _ kept => kept
  | cons call rest ih =>
    rw [List.length_cons] at room
    have here := mixed call List.mem_cons_self
    cases call with
    | decryptMessage ciphertextB64 kp seq =>
      obtain ⟨raw, decoded, hasKyber⟩ := here
      have roomHere : s.skippedKeys.keys.length < maxSkippedKeys := by omega
      obtain ⟨keeps, grown⟩ := mixed_keeps_keys decoded hasKyber roomHere kp seq
      have roomLater : (step P s (.decryptMessage ciphertextB64 kp seq)).2.skippedKeys.keys.length +
          rest.length ≤ maxSkippedKeys := Nat.le_trans (Nat.add_le_add_right grown _) (by omega)
      have later := ih (fun next member => mixed next (List.mem_cons_of_mem _ member)) roomLater
      exact fun k key kept => later k key (keeps k key kept)
    | encryptFirst | encryptMessage | decryptFirst => exact absurd here id

/-- A message that reads as `text` and leaves the chain key alone. -/
def Replays (kp : MlKem1024Keypair P) (wire : Bytes) (seq : UInt64) (text : String)
    (s : RatchetState) : Prop :=
  (decryptMessage P s (P.base64Encode wire) kp seq).1 = .ok text ∧
    (decryptMessage P s (P.base64Encode wire) kp seq).2.recvChainKey = s.recvChainKey

/-- The receiver after it was given a message, and other calls after that. -/
def afterwards (kp : MlKem1024Keypair P) (wire : Bytes) (seq : UInt64) (s : RatchetState)
    (between : List (Call P)) : RatchetState :=
  final (step P) (decryptMessage P s (P.base64Encode wire) kp seq).2 between

section

variable (correct : Correct P) {nonce : Nonce} {aesCt : Bytes} {kyberCt : MlKem1024Ciphertext}
  {kp : MlKem1024Keypair P} {s : RatchetState} {seq : UInt64} {text : String}
include correct

/-- A message that opens under the key of its ML-KEM secret does not open as a whole. -/
theorem not_opened_whole (tagged : Tagged P) (absent : s.skippedKeys.lookup (toString seq) = none)
    (read : (decryptMessage P s (P.base64Encode (nonce.val ++ mixedBody aesCt kyberCt)) kp seq).1 =
      .ok text) (key : Bytes) :
    P.aesDecrypt key nonce (mixedBody aesCt kyberCt) ≠ some (asBytes text) := by
  intro whole
  have part := tagged _ _ _ _ ((mixed_reads_iff correct absent).mp read)
  have all := tagged _ _ _ _ whole
  rw [length_mixedBody] at all
  omega

/-- What was read has left its key in the table. -/
theorem read_keeps_key (absent : s.skippedKeys.lookup (toString seq) = none)
    (read : (decryptMessage P s (P.base64Encode (nonce.val ++ mixedBody aesCt kyberCt)) kp seq).1 =
      .ok text) (room : s.skippedKeys.keys.length < maxSkippedKeys) :
    (decryptMessage P s (P.base64Encode (nonce.val ++ mixedBody aesCt kyberCt)) kp
        seq).2.skippedKeys = s.skippedKeys.insert (toString seq)
          (messageKey P (s.recvChainKey ++ (P.decapsulate kp.dec kyberCt).val)) ∧
      (decryptMessage P s (P.base64Encode (nonce.val ++ mixedBody aesCt kyberCt)) kp
        seq).2.recvMessageNumber = s.recvMessageNumber + 1 := by
  have opened := (mixed_reads_iff correct absent).mp read
  obtain ⟨table, after, -⟩ := keepKey_frame P s
    (nextChainKey P (s.recvChainKey ++ (P.decapsulate kp.dec kyberCt).val)) seq
    (messageKey P (s.recvChainKey ++ (P.decapsulate kp.dec kyberCt).val))
  rw [decryptMessage_mixed correct nonce aesCt kyberCt kp absent]
  simp only [opened]
  exact ⟨keepKey_of_room room _ _ _, congrArg RatchetState.recvMessageNumber after⟩

/-- The key of a message that was read stays while there is room. -/
theorem key_stays (absent : s.skippedKeys.lookup (toString seq) = none)
    (read : (decryptMessage P s (P.base64Encode (nonce.val ++ mixedBody aesCt kyberCt)) kp seq).1 =
      .ok text) {between : List (Call P)} (mixed : ∀ call ∈ between, IsMixed P call)
    (room : s.skippedKeys.keys.length + 1 + between.length ≤ maxSkippedKeys) :
    ∃ key, (afterwards kp (nonce.val ++ mixedBody aesCt kyberCt) seq s
      between).skippedKeys.lookup (toString seq) = some key := by
  have roomHere : s.skippedKeys.keys.length < maxSkippedKeys := by omega
  obtain ⟨kept, -⟩ := read_keeps_key correct absent read roomHere
  have grown := List.length_erase_le (l := s.skippedKeys.keys) (a := toString seq)
  have roomLater : (decryptMessage P s (P.base64Encode (nonce.val ++ mixedBody aesCt kyberCt)) kp
      seq).2.skippedKeys.keys.length + between.length ≤ maxSkippedKeys := by
    rw [kept, AList.keys_insert, List.length_cons]
    omega
  have here : (decryptMessage P s (P.base64Encode (nonce.val ++ mixedBody aesCt kyberCt)) kp
      seq).2.skippedKeys.lookup (toString seq) =
        some (messageKey P (s.recvChainKey ++ (P.decapsulate kp.dec kyberCt).val)) := by
    rw [kept, AList.lookup_insert]
  exact ⟨_, run_keeps_keys mixed roomLater _ _ here⟩

end

theorem not_replays_of_room (correct : Correct P) (tagged : Tagged P) {nonce : Nonce}
    {aesCt : Bytes} {kyberCt : MlKem1024Ciphertext} {kp : MlKem1024Keypair P} {s : RatchetState}
    {seq : UInt64} {text : String} (absent : s.skippedKeys.lookup (toString seq) = none)
    (read : (decryptMessage P s (P.base64Encode (nonce.val ++ mixedBody aesCt kyberCt)) kp seq).1 =
      .ok text) {between : List (Call P)} (mixed : ∀ call ∈ between, IsMixed P call)
    (room : s.skippedKeys.keys.length + 1 + between.length ≤ maxSkippedKeys) :
    (decryptMessage P (afterwards kp (nonce.val ++ mixedBody aesCt kyberCt) seq s between)
      (P.base64Encode (nonce.val ++ mixedBody aesCt kyberCt)) kp seq).1 ≠ .ok text := by
  obtain ⟨key, kept⟩ := key_stays correct absent read mixed room
  intro again
  exact not_opened_whole correct tagged absent read key ((stored_reads_iff correct kept).mp again)

/-- A message of the sender that was read is delivered again after other calls: it is read
again with the chain left alone exactly if its key is gone and it opens in place, or if
its whole body was opened with an older key and is again. While the table has room for
the messages in between its key is not gone, and it is not read again. -/
theorem replay_read_iff (correct : Correct P) (tagged : Tagged P) {a a' s : RatchetState}
    {text : String} {kp : MlKem1024Keypair P} {coins : P.Coins} {nonce : Nonce} {wire : Bytes}
    (sent : encryptMessage P a text kp.enc coins nonce = (.ok wire, a')) {seq : UInt64}
    {p : String} (read : (decryptMessage P s (P.base64Encode wire) kp seq).1 = .ok p)
    (between : List (Call P)) :
    (Replays kp wire seq p (afterwards kp wire seq s between) ↔
      ((afterwards kp wire seq s between).skippedKeys.lookup (toString seq) = none ∧
          OpensInPlace kp nonce (aesPart (wire.drop nonceSize) 1568)
            (P.encapsulate kp.enc coins).1 p (afterwards kp wire seq s between)) ∨
        (toString seq ∈ s.skippedKeys ∧ ∃ stored,
          (afterwards kp wire seq s between).skippedKeys.lookup (toString seq) = some stored ∧
            P.aesDecrypt stored nonce (wire.drop nonceSize) = some (asBytes p))) ∧
    (toString seq ∉ s.skippedKeys → (∀ call ∈ between, IsMixed P call) →
      s.skippedKeys.keys.length + 1 + between.length ≤ maxSkippedKeys →
      ¬ Replays kp wire seq p (afterwards kp wire seq s between)) := by
  obtain ⟨aesCt, -, rfl⟩ := encryptMessage_wire sent
  obtain ⟨aes, -⟩ := parts_append aesCt (P.encapsulate kp.enc coins).1
    (show (toBeBytes16 (P.encapsulate kp.enc coins).1.val.length).length = 2 from rfl)
  have cut : aesPart (mixedBody aesCt (P.encapsulate kp.enc coins).1) 1568 = aesCt := aes
  have unread : ∀ key, toString seq ∉ s.skippedKeys →
      P.aesDecrypt key nonce (mixedBody aesCt (P.encapsulate kp.enc coins).1) ≠ some (asBytes p) :=
    fun key absent => not_opened_whole correct tagged (AList.lookup_eq_none.mpr absent) read key
  rw [drop_nonce, cut]
  constructor
  · rw [Replays, replay_iff correct]
    refine or_congr Iff.rfl ⟨?_, fun older => older.2⟩
    rintro ⟨stored, kept, whole⟩
    refine ⟨?_, stored, kept, whole⟩
    by_contra absent
    exact unread stored absent whole
  · intro absent mixed room again
    exact not_replays_of_room correct tagged (AList.lookup_eq_none.mpr absent) read mixed room
      again.1

/-- Without its ML-KEM ciphertext the message is read with the kept key. -/
theorem stripped_read (correct : Correct P) {s : RatchetState} {seq : UInt64} {key : Bytes}
    (kept : s.skippedKeys.lookup (toString seq) = some key) {nonce : Nonce} {aesCt : Bytes}
    {text : String} (opened : P.aesDecrypt key nonce aesCt = some (asBytes text))
    (long : 18 ≤ aesCt.length) (kp : MlKem1024Keypair P) :
    decryptMessage P s (P.base64Encode (nonce.val ++ aesCt)) kp seq =
      (.ok text, { s with recvMessageNumber := max s.recvMessageNumber (seq + 1) }) := by
  have enough : ¬ (nonce.val ++ aesCt).length < nonceSize + 16 + 2 := by
    rw [List.length_append, nonce.property]
    omega
  simp only [decryptMessage, correct.base64, if_neg enough, take_nonce, drop_nonce, kept,
    storedDecrypt, opened, toText, fromUtf8_asBytes]

/-- A message that was read under a number is read under it again without its ML-KEM
ciphertext. -/
theorem stripped_read_again (correct : Correct P) {s : RatchetState} {seq : UInt64} {nonce : Nonce}
    {aesCt : Bytes} {kyberCt : MlKem1024Ciphertext} {kp : MlKem1024Keypair P} {text : String}
    (absent : s.skippedKeys.lookup (toString seq) = none)
    (read : (decryptMessage P s (P.base64Encode (nonce.val ++ mixedBody aesCt kyberCt)) kp seq).1 =
      .ok text)
    (room : s.skippedKeys.keys.length < maxSkippedKeys) (long : 18 ≤ aesCt.length) :
    ∃ t, decryptMessage P s (P.base64Encode (nonce.val ++ mixedBody aesCt kyberCt)) kp seq =
        (.ok text, t) ∧
      t.recvMessageNumber = s.recvMessageNumber + 1 ∧
      decryptMessage P t (P.base64Encode (nonce.val ++ aesCt)) kp seq =
        (.ok text, { t with recvMessageNumber := max (s.recvMessageNumber + 1) (seq + 1) }) := by
  obtain ⟨table, number⟩ := read_keeps_key correct absent read room
  have kept : (decryptMessage P s (P.base64Encode (nonce.val ++ mixedBody aesCt kyberCt)) kp
      seq).2.skippedKeys.lookup (toString seq) =
        some (messageKey P (s.recvChainKey ++ (P.decapsulate kp.dec kyberCt).val)) := by
    rw [table, AList.lookup_insert]
  have again := stripped_read correct kept ((mixed_reads_iff correct absent).mp read) long kp
  rw [number] at again
  exact ⟨_, Prod.ext read rfl, number, again⟩

def replaySender : RatchetState :=
  started checksumPrimitives "B" "nb" "A" true false checksumSecret

def greetingCt : Bytes :=
  checksumSeal (messageKey checksumPrimitives (replaySender.sendChainKey ++
    (checksumPrimitives.encapsulate (3 : UInt8) (1 : UInt8)).2.val)) checksumNonce (asBytes "hi")

def greetingKyber : MlKem1024Ciphertext :=
  (checksumPrimitives.encapsulate (3 : UInt8) (1 : UInt8)).1

/-- The first message of the small instance, with its ML-KEM ciphertext. -/
def mixedWire : Bytes := checksumNonce.val ++ mixedBody greetingCt greetingKyber

theorem mixedWire_sent :
    ∃ a', encryptMessage checksumPrimitives replaySender "hi" receiverKyber.enc (1 : UInt8)
      checksumNonce = (.ok mixedWire, a') := by
  obtain ⟨wire, a', encrypted⟩ : ∃ wire a', encryptMessage checksumPrimitives replaySender "hi"
      receiverKyber.enc (1 : UInt8) checksumNonce = (.ok wire, a') :=
    encryptMessage_sealed checksumPrimitives replaySender rfl
  obtain ⟨aesCt, sealed, rfl⟩ := encryptMessage_wire encrypted
  cases sealed
  exact ⟨a', encrypted⟩

theorem mixedWire_read (seq : UInt64) :
    (decryptMessage checksumPrimitives receiver (checksumPrimitives.base64Encode mixedWire)
      receiverKyber seq).1 = .ok "hi" := by
  obtain ⟨a', sent⟩ := mixedWire_sent
  exact read_in_step checksumPrimitives_correct rfl (fun _ => rfl) sent (AList.lookup_empty _)

/-- The greeting is read, and refused when it arrives again at once. -/
theorem replay_refused :
    new checksumPrimitives "B" "nb" "A" true checksumSecret = .ok replaySender ∧
    new checksumPrimitives "A" "na" "B" false checksumSecret = .ok receiver ∧
    (∃ a', encryptMessage checksumPrimitives replaySender "hi" receiverKyber.enc (1 : UInt8)
      checksumNonce = (.ok mixedWire, a')) ∧
    (decryptMessage checksumPrimitives receiver (checksumPrimitives.base64Encode mixedWire)
      receiverKyber 0).1 = .ok "hi" ∧
    (decryptMessage checksumPrimitives (afterwards receiverKyber mixedWire 0 receiver [])
      (checksumPrimitives.base64Encode mixedWire) receiverKyber 0).1 ≠ .ok "hi" := by
  have long : 32 ≤ checksumSecret.length := le_of_eq List.length_replicate.symm
  refine ⟨newWithMode_started _ _ _ _ _ _ long, newWithMode_started _ _ _ _ _ _ long,
    mixedWire_sent, mixedWire_read 0, ?_⟩
  exact not_replays_of_room checksumPrimitives_correct checksumPrimitives_tagged
    (AList.lookup_empty _) (mixedWire_read 0) (fun _ none => nomatch none) (by decide)

theorem replay_read_iff_greeting :
    ¬ Replays receiverKyber mixedWire 0 "hi"
      (afterwards receiverKyber mixedWire 0 receiver []) := by
  obtain ⟨a', sent⟩ := mixedWire_sent
  exact (replay_read_iff checksumPrimitives_correct checksumPrimitives_tagged sent
    (mixedWire_read 0) []).2 (AList.notMem_empty _) (fun _ none => nomatch none) (by decide)

end RatchetReplay
