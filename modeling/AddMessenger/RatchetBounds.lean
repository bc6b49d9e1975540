import AddMessenger.RatchetReplay

/-!
# What a call costs and what a session stores

`prune_skipped_keys` and the cap on the gap of `simple_decrypt` in `crypto/src/lib.rs`:
the table of skipped keys stays within its cap along every run, and no call derives
more than a bounded number of chain steps. The counted calls below are the calls with
the number of times they derive a message key.
-/

namespace RatchetBounds

open ByteStrings Mealy Ratchet RatchetRejection RatchetReplay
open RatchetConversation (checksumPrimitives_correct)

variable (P : Primitives)

/-- The table is within its cap. -/
def Bounded (s : RatchetState) : Prop := s.skippedKeys.keys.length ≤ maxSkippedKeys

variable {P} {s : RatchetState}

theorem Bounded.of_eq {t : RatchetState} (bounded : Bounded s)
    (same : t.skippedKeys = s.skippedKeys) : Bounded t := by
  rw [Bounded, same]
  exact bounded

theorem advanceRecv_bounded (bounded : Bounded s) (newCk : Bytes) : Bounded (advanceRecv s newCk) :=
  bounded.of_eq rfl

/-- One key more than the cap, and one is evicted. -/
theorem store_prune_bounded (bounded : Bounded s) (index : UInt64) (key : Bytes) :
    Bounded (pruneSkippedKeys P (storeKey s index key)) := by
  have grown : (storeKey s index key).skippedKeys.keys.length ≤ maxSkippedKeys + 1 := by
    have erased := List.length_erase_le (l := s.skippedKeys.keys) (a := toString index)
    rw [storeKey, AList.keys_insert, List.length_cons]
    exact Nat.succ_le_succ (Nat.le_trans erased bounded)
  rw [pruneSkippedKeys]
  split
  · rename_i full
    cases first : P.firstKey (storeKey s index key).skippedKeys.keys with
    | none =>
      have filled : (storeKey s index key).skippedKeys.keys ≠ [] := by
        intro empty
        rw [empty] at full
        cases full
      have found := P.firstKey_isSome _ filled
      rw [first] at found
      cases found
    | some k =>
      have member := P.firstKey_mem _ _ first
      rw [Bounded, AList.keys_erase, List.length_erase_of_mem member]
      exact Nat.sub_le_of_le_add grown
  · rename_i room
    exact Nat.not_lt.mp room

theorem skipStep_bounded (n : Nat) (bounded : Bounded s) : Bounded ((skipStep P)^[n] s) := by
  induction n with
  | zero => exact bounded
  | succ n ih =>
    rw [Function.iterate_succ_apply']
    exact (store_prune_bounded (advanceRecv_bounded ih _) _ _).of_eq rfl

theorem keepKey_bounded (bounded : Bounded s) (newCk : Bytes) (seq : UInt64) (msgKey : Bytes) :
    Bounded (keepKey P s newCk seq msgKey) := by
  have counted : Bounded { advanceRecv s newCk with
      recvMessageNumber := s.recvMessageNumber + 1 } := bounded
  exact store_prune_bounded counted seq msgKey

theorem simpleDecrypt_bounded (bounded : Bounded s) (nonce body : Bytes) (seq : UInt64) :
    Bounded (simpleDecrypt P s nonce body seq).2 := by
  by_cases far : seq.toNat - s.recvMessageNumber.toNat > maxSkipAhead
  · rw [simpleDecrypt, if_pos far]
    exact bounded
  · rw [simpleDecrypt_eq P s nonce body seq (Nat.not_lt.mp far)]
    have skipped := skipStep_bounded (P := P) (seq.toNat - s.recvMessageNumber.toNat) bounded
    dsimp only
    split
    · exact advanceRecv_bounded skipped _
    · exact keepKey_bounded skipped _ _ _

theorem kyberDecrypt_bounded (bounded : Bounded s) (nonce body : Bytes) (kyberLen : Nat)
    (ourKyber : MlKem1024Keypair P) (seq : UInt64) :
    Bounded (kyberDecrypt P s nonce body kyberLen ourKyber seq).2 := by
  cases parsed : ciphertextTryFrom (kyberPart body kyberLen) with
  | none =>
    rw [kyberDecrypt, parsed]
    exact bounded
  | some kyberCt =>
    rw [kyberDecrypt_eq P s nonce body parsed]
    dsimp only
    split
    · exact advanceRecv_bounded bounded _
    · exact keepKey_bounded bounded _ _ _

theorem asText_bounded {r : Except CryptoError Bytes × RatchetState} (bounded : Bounded r.2) :
    Bounded (asText P r).2 := by
  obtain ⟨result, t⟩ := r
  cases result with
  | error e => exact bounded
  | ok pt => exact bounded

theorem decryptMessage_bounded (bounded : Bounded s) (ciphertextB64 : String)
    (ourKyber : MlKem1024Keypair P) (seq : UInt64) :
    Bounded (decryptMessage P s ciphertextB64 ourKyber seq).2 := by
  rw [decryptMessage]
  split
  · exact bounded
  · split
    · exact bounded
    · dsimp only
      split
      · rw [storedDecrypt]
        split
        · exact bounded
        · exact bounded.of_eq rfl
      · refine asText_bounded ?_
        split
        · exact kyberDecrypt_bounded bounded _ _ _ ourKyber seq
        · exact simpleDecrypt_bounded bounded _ _ seq

theorem decryptFirst_bounded (bounded : Bounded s) (ciphertextB64 : String) :
    Bounded (decryptFirst P s ciphertextB64).2 := by
  rw [decryptFirst]
  split
  · exact bounded
  · split
    · exact bounded
    · exact asText_bounded (simpleDecrypt_bounded bounded _ _ 0)

/-- Sending does not touch the table. -/
theorem encryptFirst_keys (text : String) (nonce : Nonce) :
    (encryptFirst P s text nonce).2.skippedKeys = s.skippedKeys := by
  simp only [encryptFirst, deriveMessageKey_eq]
  split <;> rfl

theorem encryptMessage_keys (text : String) (recipient : P.EncapsulationKey) (coins : P.Coins)
    (nonce : Nonce) :
    (encryptMessage P s text recipient coins nonce).2.skippedKeys = s.skippedKeys := by
  simp only [encryptMessage, deriveMessageKey_eq]
  split <;> rfl

theorem step_bounded (s : RatchetState) (call : Call P) (bounded : Bounded s) :
    Bounded (step P s call).2 := by
  cases call with
  | encryptFirst text nonce => exact bounded.of_eq (encryptFirst_keys text nonce)
  | encryptMessage text recipient coins nonce =>
    exact bounded.of_eq (encryptMessage_keys text recipient coins nonce)
  | decryptMessage ciphertextB64 ourKyber seq =>
    exact decryptMessage_bounded bounded ciphertextB64 ourKyber seq
  | decryptFirst ciphertextB64 => exact decryptFirst_bounded bounded ciphertextB64

/-- What a computation gives, and how many chain steps it derives. -/
structure Counted (α : Type) where
  value : α
  derived : Nat

variable (P)

def skipForwardCounted : Nat → RatchetState → Counted (Except CryptoError Unit × RatchetState)
  | 0, s => ⟨(.ok (), s), 0⟩
  | n + 1, s =>
    match skipOne P s with
    | (.error e, s) => ⟨(.error e, s), 1⟩
    | (.ok (), s) =>
      let rest := skipForwardCounted n s
      ⟨rest.value, rest.derived + 1⟩

def simpleDecryptCounted (s : RatchetState) (nonce body : Bytes) (seq : UInt64) :
    Counted (Except CryptoError Bytes × RatchetState) :=
  let gap := seq.toNat - s.recvMessageNumber.toNat
  if gap > maxSkipAhead then ⟨(.error (.decryptFailed "seq gap too large"), s), 0⟩
  else
    match skipForwardCounted P gap s with
    | ⟨(.error e, s), skipped⟩ => ⟨(.error e, s), skipped⟩
    | ⟨(.ok (), s), skipped⟩ =>
      match deriveMessageKey P s.recvChainKey with
      | .error e => ⟨(.error e, s), skipped + 1⟩
      | .ok (msgKey, newCk) =>
        let s := advanceRecv s newCk
        match P.aesDecrypt msgKey nonce body with
        | none => ⟨(.error (.decryptFailed "AES-GCM: aead::Error"), s), skipped + 1⟩
        | some pt =>
          let s := { s with recvMessageNumber := s.recvMessageNumber + 1 }
          ⟨(.ok pt, pruneSkippedKeys P (storeKey s seq msgKey)), skipped + 1⟩

def kyberDecryptCounted (s : RatchetState) (nonce body : Bytes) (kyberLen : Nat)
    (ourKyber : MlKem1024Keypair P) (seq : UInt64) :
    Counted (Except CryptoError Bytes × RatchetState) :=
  match ciphertextTryFrom (kyberPart body kyberLen) with
  | none => ⟨kyberDecrypt P s nonce body kyberLen ourKyber seq, 0⟩
  | some _ => ⟨kyberDecrypt P s nonce body kyberLen ourKyber seq, 1⟩

def decryptMessageCounted (s : RatchetState) (ciphertextB64 : String)
    (ourKyber : MlKem1024Keypair P) (seq : UInt64) :
    Counted (Except CryptoError String × RatchetState) :=
  match P.base64Decode ciphertextB64 with
  | .error e => ⟨(.error (.decryptFailed ("base64 decode: " ++ e)), s), 0⟩
  | .ok raw =>
    if raw.length < nonceSize + 16 + 2 then
      ⟨(.error (.decryptFailed "ciphertext too short"), s), 0⟩
    else
      let nonce := raw.take nonceSize
      let body := raw.drop nonceSize
      match s.skippedKeys.lookup (toString seq) with
      | some stored => ⟨storedDecrypt P s stored nonce body seq, 0⟩
      | none =>
        let opened :=
          if HasKyber body then
            kyberDecryptCounted P s nonce body (trailingLength body) ourKyber seq
          else simpleDecryptCounted P s nonce body seq
        ⟨asText P opened.value, opened.derived⟩

def decryptFirstCounted (s : RatchetState) (ciphertextB64 : String) :
    Counted (Except CryptoError String × RatchetState) :=
  match P.base64Decode ciphertextB64 with
  | .error e => ⟨(.error (.decryptFailed ("base64 decode: " ++ e)), s), 0⟩
  | .ok raw =>
    if raw.length < nonceSize + 16 then
      ⟨(.error (.decryptFailed "ciphertext too short"), s), 0⟩
    else
      let opened := simpleDecryptCounted P s (raw.take nonceSize) (raw.drop nonceSize) 0
      ⟨asText P opened.value, opened.derived⟩

/-- Each encryption derives its key once. -/
def stepCounted (s : RatchetState) : Call P → Counted (Answer × RatchetState)
  | .encryptFirst text nonce => ⟨step P s (.encryptFirst text nonce), 1⟩
  | .encryptMessage text recipient coins nonce =>
    ⟨step P s (.encryptMessage text recipient coins nonce), 1⟩
  | .decryptMessage ciphertextB64 ourKyber seq =>
    let result := decryptMessageCounted P s ciphertextB64 ourKyber seq
    ⟨result.value.map .received id, result.derived⟩
  | .decryptFirst ciphertextB64 =>
    let result := decryptFirstCounted P s ciphertextB64
    ⟨result.value.map .received id, result.derived⟩

theorem skipForwardCounted_eq (n : Nat) (s : RatchetState) :
    skipForwardCounted P n s = ⟨(.ok (), (skipStep P)^[n] s), n⟩ := by
  induction n generalizing s with
  | zero => rfl
  | succ n ih =>
    have next : skipOne P s = (.ok (), skipStep P s) := rfl
    rw [skipForwardCounted, next, Function.iterate_succ_apply]
    simp only [ih]

theorem simpleDecryptCounted_value (s : RatchetState) (nonce body : Bytes) (seq : UInt64) :
    (simpleDecryptCounted P s nonce body seq).value = simpleDecrypt P s nonce body seq := by
  simp only [simpleDecryptCounted, simpleDecrypt, skipForwardCounted_eq, skipForward_eq,
    deriveMessageKey_eq]
  split
  · rfl
  · generalize (skipStep P)^[seq.toNat - s.recvMessageNumber.toNat] s = t
    cases P.aesDecrypt (messageKey P t.recvChainKey) nonce body with
    | none => rfl
    | some pt => rfl

/-- As many steps as positions are skipped, and one more. -/
theorem simpleDecryptCounted_derived (s : RatchetState) (nonce body : Bytes) (seq : UInt64) :
    (simpleDecryptCounted P s nonce body seq).derived ≤ maxSkipAhead + 1 := by
  simp only [simpleDecryptCounted, skipForwardCounted_eq, deriveMessageKey_eq]
  split
  · exact Nat.zero_le _
  · rename_i near
    have few := Nat.succ_le_succ (Nat.not_lt.mp near)
    split <;> exact few

theorem kyberDecryptCounted_value (s : RatchetState) (nonce body : Bytes) (kyberLen : Nat)
    (ourKyber : MlKem1024Keypair P) (seq : UInt64) :
    (kyberDecryptCounted P s nonce body kyberLen ourKyber seq).value =
      kyberDecrypt P s nonce body kyberLen ourKyber seq := by
  rw [kyberDecryptCounted]
  split <;> rfl

theorem kyberDecryptCounted_derived (s : RatchetState) (nonce body : Bytes) (kyberLen : Nat)
    (ourKyber : MlKem1024Keypair P) (seq : UInt64) :
    (kyberDecryptCounted P s nonce body kyberLen ourKyber seq).derived ≤ 1 := by
  rw [kyberDecryptCounted]
  split
  · exact Nat.zero_le 1
  · exact Nat.le_refl 1

theorem decryptMessageCounted_value (s : RatchetState) (ciphertextB64 : String)
    (ourKyber : MlKem1024Keypair P) (seq : UInt64) :
    (decryptMessageCounted P s ciphertextB64 ourKyber seq).value =
      decryptMessage P s ciphertextB64 ourKyber seq := by
  rw [decryptMessageCounted, decryptMessage]
  cases P.base64Decode ciphertextB64 with
  | error e => rfl
  | ok raw =>
    by_cases short : raw.length < nonceSize + 16 + 2
    · simp only [if_pos short]
    · simp only [if_neg short]
      cases s.skippedKeys.lookup (toString seq) with
      | some stored => rfl
      | none =>
        by_cases hasKyber : HasKyber (raw.drop nonceSize)
        · simp only [if_pos hasKyber, kyberDecryptCounted_value]
        · simp only [if_neg hasKyber, simpleDecryptCounted_value]

theorem decryptMessageCounted_derived (s : RatchetState) (ciphertextB64 : String)
    (ourKyber : MlKem1024Keypair P) (seq : UInt64) :
    (decryptMessageCounted P s ciphertextB64 ourKyber seq).derived ≤ maxSkipAhead + 1 := by
  rw [decryptMessageCounted]
  split
  · exact Nat.zero_le _
  · split
    · exact Nat.zero_le _
    · dsimp only
      split
      · exact Nat.zero_le _
      · split
        · exact Nat.le_trans (kyberDecryptCounted_derived P s _ _ _ ourKyber seq) (by decide)
        · exact simpleDecryptCounted_derived P s _ _ seq

theorem decryptFirstCounted_value (s : RatchetState) (ciphertextB64 : String) :
    (decryptFirstCounted P s ciphertextB64).value = decryptFirst P s ciphertextB64 := by
  rw [decryptFirstCounted, decryptFirst]
  cases P.base64Decode ciphertextB64 with
  | error e => rfl
  | ok raw =>
    by_cases short : raw.length < nonceSize + 16
    · simp only [if_pos short]
    · simp only [if_neg short, simpleDecryptCounted_value]

theorem decryptFirstCounted_derived (s : RatchetState) (ciphertextB64 : String) :
    (decryptFirstCounted P s ciphertextB64).derived ≤ maxSkipAhead + 1 := by
  rw [decryptFirstCounted]
  split
  · exact Nat.zero_le _
  · split
    · exact Nat.zero_le _
    · exact simpleDecryptCounted_derived P s _ _ 0

theorem stepCounted_value (s : RatchetState) (call : Call P) :
    (stepCounted P s call).value = step P s call := by
  cases call with
  | encryptFirst text nonce => rfl
  | encryptMessage text recipient coins nonce => rfl
  | decryptMessage ciphertextB64 ourKyber seq =>
    simp only [stepCounted, decryptMessageCounted_value, step]
  | decryptFirst ciphertextB64 => simp only [stepCounted, decryptFirstCounted_value, step]

theorem stepCounted_derived (s : RatchetState) (call : Call P) :
    (stepCounted P s call).derived ≤ maxSkipAhead + 1 := by
  cases call with
  | encryptFirst text nonce => exact Nat.le_add_left 1 _
  | encryptMessage text recipient coins nonce => exact Nat.le_add_left 1 _
  | decryptMessage ciphertextB64 ourKyber seq =>
    exact decryptMessageCounted_derived P s ciphertextB64 ourKyber seq
  | decryptFirst ciphertextB64 => exact decryptFirstCounted_derived P s ciphertextB64

/-- A session as one of the two constructors returns it. -/
inductive Fresh (s : RatchetState) : Prop where
  | new (peerFp peerNid ourFp : String) (isInitiator : Bool) (secret : Bytes)
      (made : Ratchet.new P peerFp peerNid ourFp isInitiator secret = .ok s)
  | newSelf (peerFp peerNid ourFp : String) (secret : Bytes)
      (made : Ratchet.newSelf P peerFp peerNid ourFp secret = .ok s)

variable {P}

theorem newWithMode_keys {peerFp peerNid ourFp : String} {isInitiator selfMode : Bool}
    {secret : Bytes}
    (made : newWithMode P peerFp peerNid ourFp isInitiator selfMode secret = .ok s) :
    s.skippedKeys = ∅ := by
  by_cases long : 32 ≤ secret.length
  · rw [newWithMode_started P peerFp peerNid ourFp isInitiator selfMode long] at made
    cases made
    rfl
  · rw [newWithMode, if_pos (Nat.lt_of_not_le long)] at made
    cases made

theorem fresh_bounded (fresh : Fresh P s) : Bounded s := by
  have empty : s.skippedKeys = ∅ := by
    cases fresh with
    | new peerFp peerNid ourFp isInitiator secret made => exact newWithMode_keys made
    | newSelf peerFp peerNid ourFp secret made => exact newWithMode_keys made
  rw [Bounded, empty]
  exact Nat.zero_le _

/-- A plain message too far ahead, whose key is not in the table, changes nothing. -/
theorem far_plain_refused {ciphertextB64 : String} {raw : Bytes}
    (decoded : P.base64Decode ciphertextB64 = .ok raw) (plain : ¬ HasKyber (raw.drop nonceSize))
    {seq : UInt64} (far : s.recvMessageNumber.toNat + maxSkipAhead < seq.toNat)
    (absent : s.skippedKeys.lookup (toString seq) = none) (ourKyber : MlKem1024Keypair P) :
    ∃ e, decryptMessage P s ciphertextB64 ourKyber seq = (.error e, s) := by
  rw [decryptMessage, decoded]
  by_cases short : raw.length < nonceSize + 16 + 2
  · exact ⟨_, if_pos short⟩
  · have gap : seq.toNat - s.recvMessageNumber.toNat > maxSkipAhead := by omega
    simp only [if_neg short, absent, if_neg plain, simpleDecrypt, if_pos gap]
    exact ⟨_, rfl⟩

/-- Along every run of a session the table keeps its cap and a call its cost; a plain
message too far ahead is refused without a trace unless the table has its key. -/
theorem bounded_along_run {s₀ : RatchetState} (fresh : Fresh P s₀) (calls : List (Call P)) :
    (final (step P) s₀ calls).skippedKeys.keys.length ≤ 1024 ∧
    (∀ call, (stepCounted P (final (step P) s₀ calls) call).value =
        step P (final (step P) s₀ calls) call ∧
      (stepCounted P (final (step P) s₀ calls) call).derived ≤ 1026) ∧
    ∀ ciphertextB64 raw ourKyber seq, P.base64Decode ciphertextB64 = .ok raw →
      ¬ HasKyber (raw.drop nonceSize) →
      (final (step P) s₀ calls).recvMessageNumber.toNat + 1024 < seq.toNat →
      (final (step P) s₀ calls).skippedKeys.lookup (toString seq) = none →
      ∃ e, decryptMessage P (final (step P) s₀ calls) ciphertextB64 ourKyber seq =
        (.error e, final (step P) s₀ calls) := by
  refine ⟨final_preserved Bounded step_bounded (fresh_bounded fresh) calls, fun call => ?_, ?_⟩
  · have few := stepCounted_derived P (final (step P) s₀ calls) call
    exact ⟨stepCounted_value P _ call, Nat.le_trans few (by decide)⟩
  · intro ciphertextB64 raw ourKyber seq decoded plain far absent
    exact far_plain_refused decoded plain far absent ourKyber

/-- The greeting of the small instance without its ML-KEM ciphertext. -/
def strippedWire : Bytes := checksumNonce.val ++ greetingCt

theorem drop_strippedWire : strippedWire.drop nonceSize = greetingCt := drop_nonce _ _

theorem strippedWire_plain : ¬ HasKyber (strippedWire.drop nonceSize) := by
  rw [drop_strippedWire]
  decide +kernel

theorem length_greetingCt : 18 ≤ greetingCt.length := by
  have two : (asBytes "hi").length = 2 := by decide
  rw [greetingCt, checksumSeal, checksumTag, List.length_append, List.length_replicate, two]

/-- A message as sent is accepted under any number, and without its ML-KEM ciphertext it is
then read under that number, however far ahead. -/
theorem far_plain_read :
    Ratchet.new checksumPrimitives "A" "na" "B" false checksumSecret = .ok receiver ∧
    ¬ HasKyber (strippedWire.drop nonceSize) ∧
    ∃ t, decryptMessage checksumPrimitives receiver (checksumPrimitives.base64Encode mixedWire)
        receiverKyber 5000 = (.ok "hi", t) ∧
      t.recvMessageNumber.toNat + 1024 < (5000 : UInt64).toNat ∧
      decryptMessage checksumPrimitives t (checksumPrimitives.base64Encode strippedWire)
        receiverKyber 5000 = (.ok "hi", { t with recvMessageNumber := 5001 }) := by
  have long : 32 ≤ checksumSecret.length := le_of_eq List.length_replicate.symm
  have absent : receiver.skippedKeys.lookup (toString (5000 : UInt64)) = none :=
    AList.lookup_empty _
  have room : receiver.skippedKeys.keys.length < maxSkippedKeys := by decide
  have read := mixedWire_read 5000
  rw [mixedWire] at read
  obtain ⟨t, readFar, number, again⟩ :=
    stripped_read_again checksumPrimitives_correct absent read room length_greetingCt
  have ahead : max (receiver.recvMessageNumber + 1) ((5000 : UInt64) + 1) = 5001 := by decide
  rw [ahead] at again
  have behind : t.recvMessageNumber.toNat + 1024 < (5000 : UInt64).toNat := by
    rw [number]
    decide
  rw [← mixedWire] at readFar
  exact ⟨newWithMode_started _ "A" "na" "B" false false long, strippedWire_plain, t, readFar,
    behind, again⟩

/-- The run of one rejected message. -/
theorem final_tooShort : final (step checksumPrimitives) receiver [tooShort] = receiver := rfl

theorem bounded_along_run_receiver :
    (final (step checksumPrimitives) receiver [tooShort]).skippedKeys.keys.length ≤ 1024 ∧
      ∃ e, decryptMessage checksumPrimitives (final (step checksumPrimitives) receiver [tooShort])
          (checksumPrimitives.base64Encode strippedWire) receiverKyber 5000 =
        (.error e, final (step checksumPrimitives) receiver [tooShort]) := by
  have long : 32 ≤ checksumSecret.length := le_of_eq List.length_replicate.symm
  obtain ⟨table, -, far⟩ := bounded_along_run
    (.new "A" "na" "B" false checksumSecret (newWithMode_started _ "A" "na" "B" false false long))
    [tooShort]
  have near : (final (step checksumPrimitives) receiver [tooShort]).recvMessageNumber.toNat +
      1024 < (5000 : UInt64).toNat := by
    rw [final_tooShort]
    decide
  have absent : (final (step checksumPrimitives) receiver [tooShort]).skippedKeys.lookup
      (toString (5000 : UInt64)) = none := by
    rw [final_tooShort]
    exact AList.lookup_empty _
  exact ⟨table, far (checksumPrimitives.base64Encode strippedWire) strippedWire receiverKyber 5000
    (checksumPrimitives_correct.base64 strippedWire) strippedWire_plain near absent⟩

end RatchetBounds
