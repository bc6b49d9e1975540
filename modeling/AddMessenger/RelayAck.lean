import AddMessenger.RelayTracking

/-!
# What an acknowledgement touches

`ackMessage` names a message by its `seq` alone, and senders number their messages
independently. In memory the first entry with that number is marked under each
candidate key, in the table every matching row is.
-/

namespace RelayAck

open Mealy RelayMailbox RelayTracking Tables

/-- Call `n` is fetchable and undelivered in a mailbox in memory. -/
def PendingInMemory (n : Nat) (s : RelayState) (keys : List String)
    (readNow : String → UInt64) : Prop :=
  ∃ k ∈ keys, ∃ mb, s.mailboxes k = some mb ∧ ∃ e ∈ mb.fetchUndelivered (readNow k), e.serial = n

/-- Call `n` is fetchable and undelivered in the table. -/
def PendingInTable (n : Nat) (s : RelayState) (keys : List String) : Prop :=
  ∃ rows, s.db = some rows ∧ ∃ row ∈ rows, row.pending keys = true ∧ row.serial = n

/-- Every message but call `n` that is pending in `s` is pending in `t`, in both stores. -/
def OthersStay (n : Nat) (s t : RelayState) (keys : List String)
    (readNow : String → UInt64) : Prop :=
  ∀ other, other ≠ n →
    (PendingInMemory other s keys readNow → PendingInMemory other t keys readNow) ∧
    (PendingInTable other s keys → PendingInTable other t keys)

/-- The number picks out call `n`: it is the only pending row with that `seq`, and
in each mailbox the first entry with it, unless that is no longer pending. -/
structure Unambiguous (n : Nat) (s : RelayState) (keys : List String) (seq : Int64)
    (readNow : String → UInt64) (sqlOk : Bool) : Prop where
  table : sqlOk = true → ∀ rows, s.db = some rows → ∀ row ∈ rows, row.pending keys = true →
    row.seq = seq → row.serial = n
  memory : ∀ k ∈ keys, ∀ mb, s.mailboxes k = some mb → ∀ e,
    mb.entries.find? (fun e => e.seq = seq) = some e → e ∈ mb.fetchUndelivered (readNow k) →
      e.serial = n

section

variable {cfg : Config} {s : RelayState} {mb : Mailbox} {seq : Int64} {now : UInt64}

/-- An entry that is not the first match is still pending. -/
theorem fetchUndelivered_of_ne {readNow : UInt64} {e : MailboxEntry}
    (pending : e ∈ mb.fetchUndelivered readNow)
    (other : mb.entries.find? (fun e => e.seq = seq) ≠ some e) :
    e ∈ (mb.markDelivered seq now).fetchUndelivered readNow := by
  obtain ⟨inside, state⟩ := List.mem_filter.mp pending
  refine List.mem_filter.mpr ⟨?_, state⟩
  cases found : mb.entries.find? (fun e => e.seq = seq) with
  | none =>
    simp only [Mailbox.markDelivered, updateFirst_of_none found]
    exact inside
  | some hit =>
    obtain ⟨front, back, split, updated⟩ := updateFirst_of_some
      (f := fun e => { e with deliveryStatus := 2, statusUpdatedAt := now }) found
    simp only [Mailbox.markDelivered, updated]
    rw [split] at inside
    have different : e ≠ hit := fun same => other (same ▸ found)
    simp only [List.mem_append, List.mem_cons] at inside ⊢
    tauto

/-- The first match is not pending any more. -/
theorem first_not_pending {readNow : UInt64} {hit : MailboxEntry}
    (sorted : (mb.entries.map (·.serial)).Pairwise (· < ·))
    (found : mb.entries.find? (fun e => e.seq = seq) = some hit) {e : MailboxEntry}
    (pending : e ∈ (mb.markDelivered seq now).fetchUndelivered readNow) :
    e.serial ≠ hit.serial := by
  obtain ⟨front, back, split, updated⟩ := updateFirst_of_some
    (f := fun e => { e with deliveryStatus := 2, statusUpdatedAt := now }) found
  obtain ⟨inside, state⟩ := List.mem_filter.mp pending
  simp only [Mailbox.markDelivered, updated, List.mem_append, List.mem_cons] at inside
  rcases inside with early | rfl | late
  · exact serial_ne_of_split sorted split (List.mem_append_left back early)
  · have undelivered : decide ((2 : UInt8) < 2) = true := (Bool.and_eq_true_iff.mp state).2
    exact absurd undelivered (by decide)
  · exact serial_ne_of_split sorted split (List.mem_append_right front late)

end

variable {cfg : Config} {s : RelayState} {n : Nat} {recipientNid : String} {seq : Int64}
  {keysNow now : UInt64} {readNow : String → UInt64} {sqlOk : Bool}

theorem othersStay_of_unambiguous
    (unambiguous : Unambiguous n s (mailboxKeys cfg recipientNid keysNow) seq readNow sqlOk) :
    OthersStay n s (ackMessage cfg s recipientNid seq keysNow now sqlOk)
      (mailboxKeys cfg recipientNid keysNow) readNow := by
  intro other different
  constructor
  · rintro ⟨k, candidate, mb, found, e, pending, rfl⟩
    refine ⟨k, candidate, mb.markDelivered seq now, ?_, e, ?_, rfl⟩
    · rw [ackMessage_mailboxes, if_pos candidate, found]
      rfl
    · refine fetchUndelivered_of_ne pending fun first => different ?_
      exact unambiguous.memory k candidate mb found e first pending
  · rintro ⟨rows, found, row, member, pending, rfl⟩
    simp only [PendingInTable, ackMessage, execute_db]
    cases sqlOk with
    | false => exact ⟨rows, found, row, member, pending, rfl⟩
    | true =>
      have unmarked : ¬ (row.pending (mailboxKeys cfg recipientNid keysNow) = true ∧
          row.seq = seq) := fun hit =>
        different (unambiguous.table rfl rows found row member pending hit.2)
      exact ⟨_, Option.map_eq_some_iff.mpr ⟨rows, found, rfl⟩, row,
        List.mem_map.mpr ⟨row, member, if_neg unmarked⟩, pending, rfl⟩

/-- A row that is still pending after the update was not matched by it. -/
theorem unmarked_of_pending {keys : List String} {rows : List Row} {after : Row}
    (member : after ∈ markRows keys seq rows) (pending : after.pending keys = true) :
    after ∈ rows ∧ after.seq ≠ seq := by
  obtain ⟨row, inside, rfl⟩ := List.mem_map.mp member
  by_cases hit : row.pending keys = true ∧ row.seq = seq
  · rw [if_pos hit] at pending
    simp [Row.pending] at pending
  · rw [if_neg hit] at pending ⊢
    exact ⟨inside, fun same => hit ⟨pending, same⟩⟩

theorem unambiguous_of_othersStay (recorded : Recorded cfg s)
    (stay : OthersStay n s (ackMessage cfg s recipientNid seq keysNow now sqlOk)
      (mailboxKeys cfg recipientNid keysNow) readNow) :
    Unambiguous n s (mailboxKeys cfg recipientNid keysNow) seq readNow sqlOk := by
  constructor
  · rintro rfl rows found row member pending sameSeq
    by_contra different
    obtain ⟨after, foundAfter, row', member', pending', serial⟩ :=
      (stay row.serial different).2 ⟨rows, found, row, member, pending, rfl⟩
    simp only [ackMessage, execute_db, if_true, found, Option.map_some, Option.some.injEq]
      at foundAfter
    subst foundAfter
    obtain ⟨inside, otherSeq⟩ := unmarked_of_pending member' pending'
    obtain ⟨m, logged, isRow⟩ := recorded.rows rows found row member
    have isRow' := rowIdentity_of_serial recorded logged found inside serial
    have seqs : (rowIdentity row').seq = (rowIdentity row).seq := by rw [isRow', isRow]
    exact otherSeq (seqs.trans sameSeq)
  · intro k candidate mb found e first pending
    by_contra different
    obtain ⟨inside, -⟩ := List.mem_filter.mp pending
    obtain ⟨k', candidate', mb', found', e', pending', serial⟩ :=
      (stay e.serial different).1 ⟨k, candidate, mb, found, e, pending, rfl⟩
    rw [ackMessage_mailboxes, if_pos candidate'] at found'
    obtain ⟨mb₀, held, rfl⟩ := Option.map_eq_some_iff.mp found'
    obtain ⟨m, logged, rfl, -⟩ := recorded.entries k mb found e inside
    obtain ⟨old, oldInside, same⟩ : ∃ old ∈ mb₀.entries, identity old = identity e' := by
      rw [← List.mem_map, ← map_markDelivered]
      exact List.mem_map_of_mem (List.mem_filter.mp pending').1
    -- a call number is only used under one key
    have oldSerial : (identity old).serial = e.serial := by rw [same]; exact serial
    obtain ⟨rfl, -⟩ := identity_of_serial recorded logged held oldInside oldSerial
    obtain rfl := Option.some.inj (found.symm.trans held)
    exact first_not_pending (recorded.ordered _ mb found) first pending' serial

/-- In every reachable state, acknowledging leaves every other pending message
pending in both stores exactly if the number is unambiguous. -/
theorem ack_touches_one_iff (cfg : Config) (pool : Bool) (ops : List Operation)
    (recipientNid : String) (e : MailboxEntry) (keysNow now : UInt64)
    (readNow : String → UInt64) (sqlOk : Bool) :
    OthersStay e.serial (final (step cfg) (empty pool) ops)
        (ackMessage cfg (final (step cfg) (empty pool) ops) recipientNid e.seq keysNow now sqlOk)
        (mailboxKeys cfg recipientNid keysNow) readNow ↔
      Unambiguous e.serial (final (step cfg) (empty pool) ops)
        (mailboxKeys cfg recipientNid keysNow) e.seq readNow sqlOk :=
  ⟨unambiguous_of_othersStay (final_recorded pool ops), othersStay_of_unambiguous⟩

/-- Two senders that both use number 1. -/
def twoSenders : List Operation :=
  [.storeMessage ⟨"NN-R", "NN-S", "fp-s", "first", 1⟩ 60 60 none,
    .storeMessage ⟨"NN-R", "NN-T", "fp-t", "second", 1⟩ 60 60 none]

/-- The first of them, as a fetch returns it. -/
def firstSent : MailboxEntry :=
  Row.toEntry (sumConfig none)
    ⟨"NN-R", "", "first", "NN-S", "fp-s", 1, 60, false, 0⟩

/-- Acknowledging the first message also marks the row of the second sender. -/
theorem ack_touches_other_sender :
    firstSent ∈ fetchMessages (sumConfig none)
        (final (step (sumConfig none)) (empty true) twoSenders) "NN-R" 60 (fun _ => 60) true ∧
      ¬ OthersStay firstSent.serial (final (step (sumConfig none)) (empty true) twoSenders)
        (ackMessage (sumConfig none) (final (step (sumConfig none)) (empty true) twoSenders)
          "NN-R" firstSent.seq 60 60 true)
        (mailboxKeys (sumConfig none) "NN-R" 60) (fun _ => 60) := by
  refine ⟨by decide +kernel, fun stay => ?_⟩
  obtain ⟨rows, found, row, member, pending, serial⟩ := (stay 1 (by decide)).2
    ⟨_, rfl, _, List.mem_cons_of_mem _ List.mem_cons_self, by decide +kernel, rfl⟩
  have none : ∀ row ∈ rows, ¬ row.pending (mailboxKeys (sumConfig none) "NN-R" 60) = true := by
    obtain rfl := Option.some.inj found
    decide +kernel
  exact none row member pending

end RelayAck
