import AddMessenger.KemRatchet

/-!
# Messages of the KEM ratchet that come again

The calls on one `KemRatchetState` of `crypto-pq/src/ratchet_pq.rs`. `decrypt_message` takes
the key of a number out of the table and leaves it there, so the key of a message that was
read stays until 1024 higher numbers have pushed it out.
-/

namespace KemReplay

open ByteStrings KemRatchet
open Ratchet (Primitives Nonce)

def pruneSkippedKeys (s : KemRatchetState) : KemRatchetState :=
  if maxSkippedKeys < s.skippedKeys.length then
    { s with skippedKeys := (s.skippedKeys.mergeSort fun a b => a.1 ≤ b.1).drop 1 }
  else s

/-- `newRoot` is what `advance_root_ratchet` does to the chains: it replaces the root key. -/
inductive Call where
  | encrypt (plaintext combinedSs : Bytes) (nonce : Nonce)
  | decrypt (seq : Nat) (combinedSs nonce ciphertext : Bytes)
  | prune
  | newRoot (rootKey : Bytes)

inductive Answer where
  | encrypted (result : Except PqError (Bytes × Bytes))
  | decrypted (result : Except PqError Bytes)
  | done

variable (P : Primitives)

def call (s : KemRatchetState) : Call → Answer × KemRatchetState
  | .encrypt plaintext combinedSs nonce =>
    let (result, s) := encryptMessage P s plaintext combinedSs nonce
    (.encrypted result, s)
  | .decrypt seq combinedSs nonce ciphertext =>
    let (result, s) := decryptMessage P s seq combinedSs nonce ciphertext
    (.decrypted result, s)
  | .prune => (.done, pruneSkippedKeys s)
  | .newRoot rootKey => (.done, { s with rootKey := rootKey })

/-- Once a message was read, the same number, nonce and ciphertext are not read again, and the
key of the number is gone. -/
def ReplayProtected (s : KemRatchetState) (calls : List Call) : Prop :=
  ∀ front seq combinedSs nonce ciphertext back plaintext,
    calls = front ++ .decrypt seq combinedSs nonce ciphertext :: back →
    (decryptMessage P (Mealy.final (call P) s front) seq combinedSs nonce ciphertext).1 =
      .ok plaintext →
    ∀ more rest, back = more ++ rest →
      let after := Mealy.final (call P) s
        (front ++ .decrypt seq combinedSs nonce ciphertext :: more)
      getMessageKey after seq = none ∧
        ∀ combinedSs' rest', rest = .decrypt seq combinedSs' nonce ciphertext :: rest' →
          ∀ again, (decryptMessage P after seq combinedSs' nonce ciphertext).1 ≠ .ok again

/-- The number is near enough, and the key under it opens the ciphertext: the one in the table,
if the chain has come past the number, else the one the chain will have put there. -/
def Opens (s : KemRatchetState) : Call → Prop
  | .decrypt seq combinedSs nonce ciphertext => seq ≤ s.recvSeq + maxSkipAhead ∧
      ∃ key, getMessageKey (advanceTo P seq combinedSs (seq + 1 - s.recvSeq) s).2 seq = some key ∧
        (P.aesDecrypt key nonce ciphertext).isSome
  | _ => False

variable {P} {s s' : KemRatchetState} {seq : Nat} {combinedSs nonce ciphertext plaintext : Bytes}

/-- The receive chain never fails, and comes to the number after the one it is asked for. -/
theorem advanceTo_ok (rounds : Nat) (upto : seq < s.recvSeq + rounds) :
    (advanceTo P seq combinedSs rounds s).1 = .ok () ∧
      seq < (advanceTo P seq combinedSs rounds s).2.recvSeq := by
  induction rounds generalizing s with
  | zero => exact ⟨rfl, upto⟩
  | succ rounds ih =>
    rw [advanceTo]
    split
    case isTrue more =>
      simp only [advanceRecvChain, deriveMessageKey_eq]
      exact ih (by simp only; omega)
    case isFalse past => exact ⟨rfl, Nat.lt_of_not_le past⟩

/-- A read that succeeds found a key in the table it leaves behind. -/
theorem decryptMessage_eq_ok :
    decryptMessage P s seq combinedSs nonce ciphertext = (.ok plaintext, s') ↔
      seq ≤ s.recvSeq + maxSkipAhead ∧
        s' = (advanceTo P seq combinedSs (seq + 1 - s.recvSeq) s).2 ∧
        ∃ key, getMessageKey s' seq = some key ∧
          P.aesDecrypt key nonce ciphertext = some plaintext := by
  have advanced := (@advanceTo_ok P s seq combinedSs (seq + 1 - s.recvSeq) (by omega)).1
  rcases chain : advanceTo P seq combinedSs (seq + 1 - s.recvSeq) s with ⟨result, table⟩
  rw [chain] at advanced
  obtain rfl : result = .ok () := advanced
  by_cases far : seq - s.recvSeq > maxSkipAhead
  · simp only [decryptMessage, if_pos far, Prod.mk.injEq, reduceCtorEq, false_and, false_iff]
    omega
  · have near : seq ≤ s.recvSeq + maxSkipAhead := by omega
    simp only [decryptMessage, if_neg far, chain, near, true_and]
    cases found : getMessageKey table seq with
    | none =>
      refine iff_of_false (by simp) ?_
      rintro ⟨rfl, key, held, -⟩
      rw [found] at held
      cases held
    | some key =>
      cases opened : P.aesDecrypt key nonce ciphertext with
      | none =>
        refine iff_of_false (by simp [opened]) ?_
        rintro ⟨rfl, key', held, opens⟩
        obtain rfl := Option.some.inj (found.symm.trans held)
        rw [opened] at opens
        cases opens
      | some text =>
        simp only [opened, Prod.mk.injEq, Except.ok.injEq]
        constructor
        · rintro ⟨rfl, rfl⟩
          exact ⟨rfl, key, found, opened⟩
        · rintro ⟨rfl, key', held, opens⟩
          obtain rfl := Option.some.inj (found.symm.trans held)
          exact ⟨Option.some.inj (opened.symm.trans opens), rfl⟩

/-- The key of a message that was read is still there, and the message is read again, with
whatever secret it comes. -/
theorem decryptMessage_again
    (read : decryptMessage P s seq combinedSs nonce ciphertext = (.ok plaintext, s'))
    (combinedSs' : Bytes) :
    (∃ key, getMessageKey s' seq = some key) ∧
      decryptMessage P s' seq combinedSs' nonce ciphertext = (.ok plaintext, s') := by
  obtain ⟨-, after, key, held, opens⟩ := decryptMessage_eq_ok.mp read
  have past : seq < s'.recvSeq := by
    rw [after]
    exact (advanceTo_ok _ (by omega)).2
  have rounds : seq + 1 - s'.recvSeq = 0 := by omega
  refine ⟨⟨key, held⟩, decryptMessage_eq_ok.mpr ⟨by omega, ?_, key, held, opens⟩⟩
  rw [rounds]
  rfl

/-- A message is read exactly when it opens. -/
theorem decryptMessage_ok_iff :
    (∃ plaintext, (decryptMessage P s seq combinedSs nonce ciphertext).1 = .ok plaintext) ↔
      Opens P s (.decrypt seq combinedSs nonce ciphertext) := by
  constructor
  · rintro ⟨plaintext, read⟩
    obtain ⟨near, after, key, held, opens⟩ := decryptMessage_eq_ok.mp (Prod.ext read rfl)
    rw [after] at held
    exact ⟨near, key, held, Option.isSome_iff_exists.mpr ⟨plaintext, opens⟩⟩
  · rintro ⟨near, key, held, opens⟩
    obtain ⟨plaintext, opens⟩ := Option.isSome_iff_exists.mp opens
    have read := decryptMessage_eq_ok.mpr ⟨near, rfl, key, held, opens⟩
    exact ⟨plaintext, congrArg Prod.fst read⟩

theorem final_again {front : List Call}
    (read : (decryptMessage P (Mealy.final (call P) s front) seq combinedSs nonce ciphertext).1 =
      .ok plaintext)
    (after : s' = Mealy.final (call P) s (front ++ [.decrypt seq combinedSs nonce ciphertext]))
    (combinedSs' : Bytes) :
    (∃ key, getMessageKey s' seq = some key) ∧
      decryptMessage P s' seq combinedSs' nonce ciphertext = (.ok plaintext, s') := by
  rw [Mealy.final_append] at after
  exact decryptMessage_again (Prod.ext read after.symm) combinedSs'

theorem advanceTo_counters (rounds : Nat) :
    (advanceTo P seq combinedSs rounds s).2.sendSeq = s.sendSeq ∧
      (advanceTo P seq combinedSs rounds s).2.recvSeq ≤ max s.recvSeq (seq + 1) := by
  induction rounds generalizing s with
  | zero => exact ⟨rfl, Nat.le_max_left ..⟩
  | succ rounds ih =>
    rw [advanceTo]
    split
    case isTrue more =>
      simp only [advanceRecvChain, deriveMessageKey_eq]
      obtain ⟨sent, received⟩ := @ih { storeSkippedKey s s.recvSeq
          (messageKey P s.recvChainKey combinedSs) with
        recvChainKey := nextChainKey P s.recvChainKey combinedSs
        recvSeq := s.recvSeq + 1 }
      exact ⟨sent, received.trans (by simp only; omega)⟩
    case isFalse past => exact ⟨rfl, Nat.le_max_left ..⟩

/-- No call moves a counter far. -/
theorem call_counters (s : KemRatchetState) (c : Call) :
    (call P s c).2.sendSeq ≤ s.sendSeq + 1 ∧
      (call P s c).2.recvSeq ≤ s.recvSeq + (maxSkipAhead + 1) := by
  cases c with
  | encrypt plaintext combinedSs nonce =>
    simp only [call, encryptMessage, advanceSendChain, deriveMessageKey_eq, getMessageKey]
    split
    · exact ⟨le_rfl, Nat.le_add_right ..⟩
    · split <;> exact ⟨le_rfl, Nat.le_add_right ..⟩
  | decrypt seq combinedSs nonce ciphertext =>
    have moved : ∀ t, t = (advanceTo P seq combinedSs (seq + 1 - s.recvSeq) s).2 →
        seq ≤ s.recvSeq + maxSkipAhead →
        t.sendSeq ≤ s.sendSeq + 1 ∧ t.recvSeq ≤ s.recvSeq + (maxSkipAhead + 1) := by
      rintro t rfl near
      obtain ⟨sent, received⟩ :=
        @advanceTo_counters P s seq combinedSs (seq + 1 - s.recvSeq)
      exact ⟨by omega, by omega⟩
    simp only [call, decryptMessage]
    split
    · exact ⟨Nat.le_add_right .., Nat.le_add_right ..⟩
    · rcases chain : advanceTo P seq combinedSs (seq + 1 - s.recvSeq) s with ⟨result, t⟩
      have bounds := moved t (by rw [chain]) (by omega)
      cases result with
      | error e => exact bounds
      | ok _ =>
        simp only
        split
        · exact bounds
        · split <;> exact bounds
  | prune =>
    rw [call, pruneSkippedKeys]
    split <;> exact ⟨Nat.le_add_right .., Nat.le_add_right ..⟩
  | newRoot rootKey => exact ⟨Nat.le_add_right .., Nat.le_add_right ..⟩

theorem counters_final_le (s : KemRatchetState) (calls : List Call) :
    (Mealy.final (call P) s calls).sendSeq ≤ s.sendSeq + calls.length ∧
      (Mealy.final (call P) s calls).recvSeq ≤
        s.recvSeq + calls.length * (maxSkipAhead + 1) := by
  induction calls generalizing s with
  | nil => exact ⟨le_rfl, Nat.le_add_right ..⟩
  | cons c rest ih =>
    obtain ⟨sent, received⟩ := @call_counters P s c
    obtain ⟨later, later'⟩ := ih (call P s c).2
    rw [Mealy.final_cons, List.length_cons, Nat.succ_mul]
    exact ⟨by omega, by omega⟩

/-- Fewer than 2 ^ 53 calls on a new state do not bring a counter to the end of 64 bits. -/
theorem counters_fit (rootKey sendChainKey recvChainKey : Bytes) {calls : List Call}
    (few : calls.length < 2 ^ 53) :
    (Mealy.final (call P) (new rootKey sendChainKey recvChainKey) calls).sendSeq < 2 ^ 64 ∧
      (Mealy.final (call P) (new rootKey sendChainKey recvChainKey) calls).recvSeq < 2 ^ 64 := by
  obtain ⟨sent, received⟩ :=
    @counters_final_le P (new rootKey sendChainKey recvChainKey) calls
  simp only [new, maxSkipAhead] at sent received ⊢
  exact ⟨by omega, by omega⟩

/-- After every message that is read its key is still there, so the runs that keep the promise
are those in which no message is read. In the others the message is read again at once. -/
theorem replayProtected_iff (P : Primitives) (s : KemRatchetState) (calls : List Call) :
    (ReplayProtected P s calls ↔ Mealy.Along (call P) (fun s c => ¬ Opens P s c) s calls) ∧
      ∀ front seq combinedSs nonce ciphertext plaintext s',
        (decryptMessage P (Mealy.final (call P) s front) seq combinedSs nonce ciphertext).1 =
          .ok plaintext →
        s' = Mealy.final (call P) s (front ++ [.decrypt seq combinedSs nonce ciphertext]) →
        ∀ combinedSs', (∃ key, getMessageKey s' seq = some key) ∧
          decryptMessage P s' seq combinedSs' nonce ciphertext = (.ok plaintext, s') := by
  refine ⟨⟨fun safe => ?_, fun closed => ?_⟩,
    fun _ _ _ _ _ _ _ read after => final_again read after⟩
  · rw [Mealy.along_iff_split]
    intro front c back split opens
    cases c with
    | decrypt seq combinedSs nonce ciphertext =>
      obtain ⟨plaintext, read⟩ := decryptMessage_ok_iff.mpr opens
      obtain ⟨⟨key, held⟩, -⟩ := final_again read rfl []
      have gone := (safe front seq combinedSs nonce ciphertext back plaintext split read [] back
        rfl).1
      rw [gone] at held
      cases held
    | _ => exact opens
  · intro front seq combinedSs nonce ciphertext back plaintext split read
    have shut := (Mealy.along_iff_split s calls).mp closed front _ back split
    exact absurd (decryptMessage_ok_iff.mp ⟨plaintext, read⟩) shut

open Ratchet (checksumPrimitives)

def receiver : KemRatchetState :=
  new (List.replicate 32 0) (List.replicate 32 2) (List.replicate 32 1)

/-- The first message of the receiver's chain. -/
def firstMessage : Bytes :=
  (checksumPrimitives.aesEncrypt (messageKey checksumPrimitives (List.replicate 32 1) (secret 3))
    (List.replicate 12 0) [104, 105]).getD []

def firstCall : Call := .decrypt 0 (secret 3) (List.replicate 12 0) firstMessage

theorem firstCall_read :
    (decryptMessage checksumPrimitives receiver 0 (secret 3) (List.replicate 12 0)
      firstMessage).1 = .ok [104, 105] := by
  decide +kernel

/-- The message that was read is delivered a second time. -/
theorem not_replayProtected_twice :
    ¬ ReplayProtected checksumPrimitives receiver [firstCall, firstCall] := by
  intro safe
  have gone := (safe [] 0 (secret 3) (List.replicate 12 0) firstMessage [firstCall] [104, 105] rfl
    firstCall_read [] [firstCall] rfl).2 (secret 3) [] rfl [104, 105]
  have again := @final_again checksumPrimitives receiver _ 0 (secret 3) (List.replicate 12 0)
    firstMessage [104, 105] [] firstCall_read rfl (secret 3)
  exact gone (congrArg Prod.fst again.2)

/-- The run of that one call, and the same call after it. -/
theorem replayProtected_iff_firstCall :
    (decryptMessage checksumPrimitives receiver 0 (secret 3) (List.replicate 12 0)
        firstMessage).1 = .ok [104, 105] ∧
      (∃ s', s' = Mealy.final (call checksumPrimitives) receiver [firstCall] ∧
        decryptMessage checksumPrimitives s' 0 (secret 3) (List.replicate 12 0) firstMessage =
          (.ok [104, 105], s')) :=
  ⟨firstCall_read, _, rfl, ((replayProtected_iff checksumPrimitives receiver []).2 [] 0 (secret 3)
    (List.replicate 12 0) firstMessage [104, 105] _ firstCall_read rfl (secret 3)).2⟩

end KemReplay
