import AddMessenger.KemReceiver

/-!
# Messages of the KEM ratchet that cannot be read

`decrypt_message` of `crypto-pq/src/ratchet_pq.rs` moves the chain to the number it is given,
with the secret it is given, and only then looks at the tag. What it cannot read leaves the
state alone if the number was passed already or is refused.
-/

namespace KemFailure

open ByteStrings KemRatchet KemReceiver
open Ratchet (Primitives)

variable (P : Primitives)

/-- The chain, the number and the table are as they were, and every later message is answered
as before. -/
structure Untouched (s s' : KemRatchetState) : Prop where
  recvChainKey : s'.recvChainKey = s.recvChainKey
  recvSeq : s'.recvSeq = s.recvSeq
  skippedKeys : s'.skippedKeys = s.skippedKeys
  later : ∀ seq combinedSs nonce ciphertext,
    (decryptMessage P s' seq combinedSs nonce ciphertext).1 =
      (decryptMessage P s seq combinedSs nonce ciphertext).1

def FailsAtomically (s : KemRatchetState) (seq : Nat) (combinedSs nonce ciphertext : Bytes) :
    Prop :=
  ∀ e, (decryptMessage P s seq combinedSs nonce ciphertext).1 = .error e →
    Untouched P s (decryptMessage P s seq combinedSs nonce ciphertext).2

/-- The table with the keys of so many numbers from the receiver's on, as far as it keeps
them. -/
def tableWith (combinedSs : Bytes) (s : KemRatchetState) (count : Nat) : List (Nat × Bytes) :=
  (List.range count).foldl (fun table i =>
    Windows.insertHighest maxSkippedKeys table (s.recvSeq + i)
      (keyFrom P combinedSs s.recvChainKey i)) s.skippedKeys

/-- The key that the table then has under the number opens the ciphertext. -/
def OpensNext (s : KemRatchetState) (seq : Nat) (combinedSs nonce ciphertext : Bytes) : Prop :=
  ∃ key, (tableWith P combinedSs s (seq + 1 - s.recvSeq)).lookup seq = some key ∧
    (P.aesDecrypt key nonce ciphertext).isSome

variable {P} {s : KemRatchetState} {seq : Nat} {combinedSs nonce ciphertext : Bytes}

theorem tableWith_succ (count : Nat) :
    tableWith P combinedSs s (count + 1) =
      Windows.insertHighest maxSkippedKeys (tableWith P combinedSs s count) (s.recvSeq + count)
        (keyFrom P combinedSs s.recvChainKey count) := by
  rw [tableWith, List.range_succ, List.foldl_append]
  rfl

/-- The state after so many rounds of the loop. -/
def advanced (P : Primitives) (combinedSs : Bytes) (s : KemRatchetState) (count : Nat) :
    KemRatchetState :=
  { s with
    recvChainKey := chainFrom P combinedSs s.recvChainKey count
    recvSeq := s.recvSeq + count
    skippedKeys := tableWith P combinedSs s count }

theorem advanceRecvChain_advanced (count : Nat) :
    advanceRecvChain P (advanced P combinedSs s count) combinedSs =
      (.ok (), advanced P combinedSs s (count + 1)) := by
  have next := chainFrom_succ P combinedSs s.recvChainKey count
  simp only [advanceRecvChain, deriveMessageKey_eq, advanced, next, storeSkippedKey,
    tableWith_succ, Nat.add_assoc]
  rfl

theorem advanceTo_advanced {count rounds : Nat} (upto : s.recvSeq + count + rounds = seq + 1) :
    advanceTo P seq combinedSs rounds (advanced P combinedSs s count) =
      (.ok (), advanced P combinedSs s (count + rounds)) := by
  induction rounds generalizing count with
  | zero => rfl
  | succ rounds ih =>
    have more : (advanced P combinedSs s count).recvSeq ≤ seq := by
      show s.recvSeq + count ≤ seq
      omega
    rw [advanceTo, if_pos more, advanceRecvChain_advanced]
    simp only
    rw [ih (by omega), Nat.add_right_comm, Nat.add_assoc]

theorem advanceTo_eq_advanced (ahead : s.recvSeq ≤ seq) :
    advanceTo P seq combinedSs (seq + 1 - s.recvSeq) s =
      (.ok (), advanced P combinedSs s (seq + 1 - s.recvSeq)) := by
  have from_ := @advanceTo_advanced P s seq combinedSs 0 (seq + 1 - s.recvSeq) (by omega)
  rwa [Nat.zero_add] at from_

/-- What was passed or is refused leaves the state as it is, read or not. -/
theorem decryptMessage_snd_of_far
    (far : seq < s.recvSeq ∨ s.recvSeq + maxSkipAhead < seq) :
    (decryptMessage P s seq combinedSs nonce ciphertext).2 = s := by
  rcases far with passed | refused
  · have near : ¬ seq - s.recvSeq > maxSkipAhead := by omega
    have rounds : seq + 1 - s.recvSeq = 0 := by omega
    rw [decryptMessage, if_neg near, rounds, advanceTo]
    simp only
    split
    · rfl
    · split <;> rfl
  · have gap : seq - s.recvSeq > maxSkipAhead := by omega
    rw [decryptMessage, if_pos gap]

/-- A number in reach moves the receiver past it, whether the message can be read or not. -/
theorem decryptMessage_snd_of_near (ahead : s.recvSeq ≤ seq)
    (near : seq ≤ s.recvSeq + maxSkipAhead) :
    (decryptMessage P s seq combinedSs nonce ciphertext).2 =
      advanced P combinedSs s (seq + 1 - s.recvSeq) := by
  have gap : ¬ seq - s.recvSeq > maxSkipAhead := by omega
  rw [decryptMessage, if_neg gap, advanceTo_eq_advanced ahead]
  simp only
  split
  · rfl
  · split <;> rfl

theorem decryptMessage_ok_iff_of_near (ahead : s.recvSeq ≤ seq)
    (near : seq ≤ s.recvSeq + maxSkipAhead) :
    (∃ plaintext, (decryptMessage P s seq combinedSs nonce ciphertext).1 = .ok plaintext) ↔
      OpensNext P s seq combinedSs nonce ciphertext := by
  rw [KemReplay.decryptMessage_ok_iff]
  show (seq ≤ s.recvSeq + maxSkipAhead ∧ _) ↔ _
  rw [advanceTo_eq_advanced ahead]
  exact and_iff_right near

/-- A message that cannot be read leaves the state alone exactly where the chain has passed
the number, or the number is refused; and what can be read is no failure. -/
theorem failsAtomically_iff (P : Primitives) (s : KemRatchetState) (seq : Nat)
    (combinedSs nonce ciphertext : Bytes) :
    FailsAtomically P s seq combinedSs nonce ciphertext ↔
      seq < s.recvSeq ∨ s.recvSeq + maxSkipAhead < seq ∨
        OpensNext P s seq combinedSs nonce ciphertext := by
  by_cases far : seq < s.recvSeq ∨ s.recvSeq + maxSkipAhead < seq
  · have same := @decryptMessage_snd_of_far P s seq combinedSs nonce ciphertext far
    have untouched : FailsAtomically P s seq combinedSs nonce ciphertext := by
      intro e failed
      rw [same]
      exact ⟨rfl, rfl, rfl, fun _ _ _ _ => rfl⟩
    refine iff_of_true untouched ?_
    rcases far with passed | refused
    · exact .inl passed
    · exact .inr (.inl refused)
  · have ahead : s.recvSeq ≤ seq := Nat.le_of_not_lt fun passed => far (.inl passed)
    have near : seq ≤ s.recvSeq + maxSkipAhead :=
      Nat.le_of_not_lt fun refused => far (.inr refused)
    have reads := @decryptMessage_ok_iff_of_near P s seq combinedSs nonce ciphertext ahead near
    have after := @decryptMessage_snd_of_near P s seq combinedSs nonce ciphertext ahead near
    constructor
    · intro atomic
      refine .inr (.inr (reads.mp ?_))
      cases result : (decryptMessage P s seq combinedSs nonce ciphertext).1 with
      | ok plaintext => exact ⟨plaintext, rfl⟩
      | error e =>
        -- the number itself has moved
        have moved := (atomic e result).recvSeq
        rw [after] at moved
        have : s.recvSeq + (seq + 1 - s.recvSeq) = s.recvSeq := moved
        omega
    · rintro (passed | refused | opens) e failed
      · omega
      · omega
      · obtain ⟨plaintext, read⟩ := reads.mpr opens
        rw [read] at failed
        cases failed

open Ratchet (checksumPrimitives)
open KemReplay (receiver firstMessage firstCall_read)

/-- The forged message has the number of the first message and another secret. -/
theorem not_failsAtomically_forged :
    ¬ FailsAtomically checksumPrimitives receiver 0 (secret 4) (List.replicate 12 0) [1] := by
  intro atomic
  have failed : (decryptMessage checksumPrimitives receiver 0 (secret 4) (List.replicate 12 0)
      [1]).1 = .error (.decapsulationFailed "AES-GCM decrypt / auth failure") := by
    decide +kernel
  have answer := (atomic _ failed).later 0 (secret 3) (List.replicate 12 0) firstMessage
  rw [firstCall_read] at answer
  have lost : (decryptMessage checksumPrimitives
      (decryptMessage checksumPrimitives receiver 0 (secret 4) (List.replicate 12 0) [1]).2
      0 (secret 3) (List.replicate 12 0) firstMessage).1 ≠ .ok [104, 105] := by
    decide +kernel
  exact lost answer

end KemFailure
