import AddMessenger.RelayTracking

/-!
# How long a relay keeps mail

`fetch_messages` and `cleanup_expired` of `relay/src/main.rs`. A mailbox in memory shows and
keeps an entry while it is younger than seven days. The select asks for no age, and the
delete wants rows that are delivered and strictly older.
-/

namespace MailboxExpiry

open Mealy RelayMailbox RelayTracking

variable (cfg : Config)

/-- Seven days or more have passed. -/
def Expired (now storedAt : UInt64) : Prop :=
  storedAt.toNat + mailboxTtlSeconds.toNat ≤ now.toNat

instance (now storedAt : UInt64) : Decidable (Expired now storedAt) :=
  inferInstanceAs (Decidable (_ ≤ _))

structure HoldsNoExpired (s : RelayState) (now : UInt64) : Prop where
  mailboxes : ∀ k mb, s.mailboxes k = some mb → ∀ e ∈ mb.entries, ¬ Expired now e.storedAt
  rows : ∀ rows, s.db = some rows → ∀ row ∈ rows, ¬ Expired now row.storedAt.toUInt64

/-- A fetch answers with nothing that has expired, and a cleanup leaves nothing. -/
def Expires (s : RelayState) : Operation → Prop
  | .fetchMessages recipientNid now readNow sqlOk =>
    ∀ e ∈ fetchMessages cfg s recipientNid now readNow sqlOk, ¬ Expired now e.storedAt
  | .cleanupExpired now sqlOk => HoldsNoExpired (cleanupExpired s now sqlOk) now
  | _ => True

/-- The clock does not go back between two readings of one fetch. -/
def ReadsForward : Operation → Prop
  | .fetchMessages recipientNid now readNow _ =>
    ∀ k ∈ mailboxKeys cfg recipientNid now, now ≤ readNow k
  | _ => True

/-- The condition of the delete. -/
def outdated (now : UInt64) (row : Row) : Bool :=
  row.storedAt < (now - mailboxTtlSeconds).toInt64 && row.delivered

/-- No row that a fetch selects has expired, and every row that has when a cleanup comes is
deleted by it. -/
def TableInTime (s : RelayState) : Operation → Prop
  | .fetchMessages recipientNid now _ sqlOk => sqlOk = true → ∀ rows, s.db = some rows →
    ∀ row ∈ rows, row.pending (mailboxKeys cfg recipientNid now) = true →
      ¬ Expired now row.storedAt.toUInt64
  | .cleanupExpired now sqlOk => ∀ rows, s.db = some rows →
    ∀ row ∈ rows, Expired now row.storedAt.toUInt64 → sqlOk = true ∧ outdated now row = true
  | _ => True

theorem mailboxTtlSeconds_toNat : mailboxTtlSeconds.toNat = 604800 := rfl

/-- The subtraction wraps for an entry of the future, which has not expired. -/
theorem not_expired_of_live {now : UInt64} {e : MailboxEntry}
    (live : Mailbox.isLive now e = true) : ¬ Expired now e.storedAt := by
  intro expired
  have past : e.storedAt ≤ now := UInt64.le_iff_toNat_le.mpr (by unfold Expired at expired; omega)
  have age := UInt64.lt_iff_toNat_lt.mp (of_decide_eq_true live)
  rw [UInt64.toNat_sub_of_le now e.storedAt past] at age
  unfold Expired at expired
  omega

theorem not_expired_earlier {now later storedAt : UInt64} (le : now ≤ later)
    (alive : ¬ Expired later storedAt) : ¬ Expired now storedAt := by
  have forward := UInt64.le_iff_toNat_le.mp le
  unfold Expired at alive ⊢
  omega

theorem toInt_toInt64 {x : UInt64} (small : x.toNat < 2 ^ 63) : x.toInt64.toInt = x.toNat :=
  BitVec.toInt_eq_toNat_of_lt (by
    change 2 * x.toNat < 2 ^ 64
    omega)

/-- While the seconds fit the signed column, a row that has expired is deleted exactly if it is
delivered and not exactly seven days old. -/
theorem outdated_iff {now : UInt64} {row : Row} (small : now.toNat < 2 ^ 63)
    (old : Expired now row.storedAt.toUInt64) :
    outdated now row = true ↔
      row.delivered = true ∧
        row.storedAt.toUInt64.toNat + mailboxTtlSeconds.toNat ≠ now.toNat := by
  rw [Expired, mailboxTtlSeconds_toNat] at old
  rw [outdated, Bool.and_eq_true, decide_eq_true_iff, and_comm, mailboxTtlSeconds_toNat]
  refine and_congr_right fun _ => ?_
  have past : mailboxTtlSeconds ≤ now := UInt64.le_iff_toNat_le.mpr (by
    rw [mailboxTtlSeconds_toNat]
    omega)
  have cutoff := UInt64.toNat_sub_of_le now mailboxTtlSeconds past
  rw [mailboxTtlSeconds_toNat] at cutoff
  rw [Int64.lt_iff_toInt_lt, toInt_toInt64 (by omega), ← Int64.toInt64_toUInt64 row.storedAt,
    toInt_toInt64 (by omega), cutoff, Int64.toInt64_toUInt64]
  omega

variable {cfg} {s : RelayState}

/-- What a scan of the mailboxes finds was live when its mailbox was read. -/
theorem scanMailboxes_live {readNow : String → UInt64} {keys : List String} {e : MailboxEntry}
    (found : e ∈ scanMailboxes s readNow keys) :
    ∃ k ∈ keys, Mailbox.isLive (readNow k) e = true := by
  obtain ⟨k, mb, first, -, inside⟩ := (mem_scanMailboxes readNow keys e).mp found
  exact ⟨k, List.mem_of_find?_eq_some first, (List.mem_filter.mp inside).2⟩

/-- Only what comes from the table can have expired. -/
theorem fetchMessages_alive_iff {recipientNid : String} {now : UInt64}
    {readNow : String → UInt64} {sqlOk : Bool}
    (forward : ∀ k ∈ mailboxKeys cfg recipientNid now, now ≤ readNow k) :
    (∀ e ∈ fetchMessages cfg s recipientNid now readNow sqlOk, ¬ Expired now e.storedAt) ↔
      ∀ e ∈ selectRows cfg s (mailboxKeys cfg recipientNid now) sqlOk,
        ¬ Expired now e.storedAt := by
  simp only [fetchMessages]
  split
  · rename_i none
    rw [List.isEmpty_iff.mp none]
    refine iff_of_true (fun e found => ?_) (fun e found => absurd found List.not_mem_nil)
    obtain ⟨k, member, live⟩ := scanMailboxes_live found
    exact not_expired_earlier (forward k member) (not_expired_of_live live)
  · exact Iff.rfl

theorem cleanupExpired_db (now : UInt64) (sqlOk : Bool) :
    (cleanupExpired s now sqlOk).db =
      if sqlOk then s.db.map (List.filter fun row => !outdated now row) else s.db := by
  rw [cleanupExpired, execute_db]
  rfl

theorem cleanupExpired_alive {now : UInt64} {sqlOk : Bool} {k : String} {mb : Mailbox}
    (left : (cleanupExpired s now sqlOk).mailboxes k = some mb) :
    ∀ e ∈ mb.entries, ¬ Expired now e.storedAt := by
  intro e member
  simp only [cleanupExpired, execute_mailboxes, Option.filter_eq_some_iff,
    Option.map_eq_some_iff] at left
  obtain ⟨⟨before, -, rfl⟩, -⟩ := left
  exact not_expired_of_live (List.mem_filter.mp member).2

theorem holdsNoExpired_cleanup_iff (now : UInt64) (sqlOk : Bool) :
    HoldsNoExpired (cleanupExpired s now sqlOk) now ↔
      ∀ rows, s.db = some rows → ∀ row ∈ rows, Expired now row.storedAt.toUInt64 →
        sqlOk = true ∧ outdated now row = true := by
  have table : HoldsNoExpired (cleanupExpired s now sqlOk) now ↔
      ∀ rows, (cleanupExpired s now sqlOk).db = some rows →
        ∀ row ∈ rows, ¬ Expired now row.storedAt.toUInt64 :=
    ⟨fun holds => holds.rows, fun rows => ⟨fun k mb left => cleanupExpired_alive left, rows⟩⟩
  rw [table, cleanupExpired_db]
  cases s.db with
  | none => simp
  | some rows =>
    cases sqlOk with
    | false => simp
    | true =>
      simp only [if_true, Option.map_some, Option.some.injEq, forall_eq', List.mem_filter,
        Bool.not_eq_true', and_imp, true_and]
      refine forall₂_congr fun row _ => ?_
      cases outdated now row <;> simp

theorem expires_step_iff {op : Operation} (forward : ReadsForward cfg op) :
    Expires cfg s op ↔ TableInTime cfg s op := by
  cases op with
  | storeMessage req epochNow now dbError => exact Iff.rfl
  | fetchMessages recipientNid now readNow sqlOk =>
    rw [Expires, fetchMessages_alive_iff forward]
    simp only [mem_selectRows, TableInTime]
    constructor
    · intro alive ok rows pool row member pending
      exact alive _ ⟨ok, rows, pool, row, member, pending, rfl⟩
    · rintro inTime e ⟨ok, rows, pool, row, member, pending, rfl⟩
      exact inTime ok rows pool row member pending
  | ackMessage recipientNid seq keysNow now sqlOk => exact Iff.rfl
  | purgeAllMessages recipientNid senderFp now sqlOk => exact Iff.rfl
  | cleanupExpired now sqlOk => exact holdsNoExpired_cleanup_iff now sqlOk

theorem tableInTime_of_noPool (noPool : s.db = none) (op : Operation) : TableInTime cfg s op := by
  cases op with
  | storeMessage req epochNow now dbError => trivial
  | fetchMessages recipientNid now readNow sqlOk =>
    intro _ rows pool
    cases noPool.symm.trans pool
  | ackMessage recipientNid seq keysNow now sqlOk => trivial
  | purgeAllMessages recipientNid senderFp now sqlOk => trivial
  | cleanupExpired now sqlOk =>
    intro rows pool
    cases noPool.symm.trans pool

/-- What is kept in memory only expires in time. -/
theorem expires_of_noPool (noPool : s.db = none) (ops : List Operation)
    (forward : ∀ op ∈ ops, ReadsForward cfg op) : Along (step cfg) (Expires cfg) s ops := by
  refine (along_iff_split s ops).mpr fun front op back split => ?_
  refine (expires_step_iff (forward op (by simp [split]))).mpr (tableInTime_of_noPool ?_ op)
  have same := @final_db_isSome cfg s front
  rw [noPool] at same
  exact Option.isNone_iff_eq_none.mp (Option.isSome_eq_false_iff.mp same)

/-- In a run everything expires in time exactly if no row is selected after seven days, and each
cleanup meets only rows younger than that or ones it deletes. -/
theorem expires_iff (cfg : Config) (s : RelayState) (ops : List Operation)
    (forward : ∀ op ∈ ops, ReadsForward cfg op) :
    Along (step cfg) (Expires cfg) s ops ↔ Along (step cfg) (TableInTime cfg) s ops :=
  along_congr (fun _ op member => expires_step_iff (forward op member)) s

def letter : Operation := .storeMessage ⟨"bob", "nid", "fp", "hello", 1⟩ 0 0 none

def fetchAt (now : UInt64) : Operation := .fetchMessages "bob" now (fun _ => now) true

/-- Fetched, acknowledged, and cleaned up in the second after the seven days. -/
def punctual : List Operation :=
  [letter, fetchAt 60, .ackMessage "bob" 1 60 60 true, .cleanupExpired 604801 true]

theorem expires_iff_punctual :
    Along (step (sumConfig none)) (Expires (sumConfig none)) (empty true) punctual := by
  refine (expires_iff (sumConfig none) (empty true) punctual ?_).mpr ?_
  · intro op member
    simp only [punctual, List.mem_cons, List.not_mem_nil, or_false] at member
    rcases member with rfl | rfl | rfl | rfl
    · trivial
    · exact fun k _ => UInt64.le_refl 60
    · trivial
    · trivial
  · refine ⟨trivial, ?_, trivial, ?_, trivial⟩
    · rintro _ rows ⟨rfl⟩
      decide +kernel
    · rintro rows ⟨rfl⟩
      decide +kernel

/-- A letter that was never acknowledged outlives a cleanup and is fetched after seven days; one
that was acknowledged outlives the cleanup that comes when they have just passed. -/
theorem not_expires_letter :
    (∀ op ∈ [letter, fetchAt 604800], ReadsForward (sumConfig none) op) ∧
      ¬ Along (step (sumConfig none)) (Expires (sumConfig none)) (empty true)
        [letter, fetchAt 604800] ∧
      ¬ Along (step (sumConfig none)) (Expires (sumConfig none)) (empty true)
        [letter, .cleanupExpired 700000 true] ∧
      ¬ Along (step (sumConfig none)) (Expires (sumConfig none)) (empty true)
        [letter, .ackMessage "bob" 1 60 60 true, .cleanupExpired 604800 true] := by
  refine ⟨?_, ?_, ?_, ?_⟩
  · refine List.forall_mem_cons.mpr ⟨trivial, List.forall_mem_singleton.mpr ?_⟩
    exact fun k _ => UInt64.le_refl 604800
  · rintro ⟨-, fetched, -⟩
    have alive : ∀ e ∈ fetchMessages (sumConfig none)
        (final (step (sumConfig none)) (empty true) [letter]) "bob" 604800 (fun _ => 604800) true,
        ¬ Expired 604800 e.storedAt := fetched
    exact absurd alive (by decide +kernel)
  · rintro ⟨-, cleaned, -⟩
    exact absurd (cleaned.rows _ rfl) (by decide +kernel)
  · rintro ⟨-, -, cleaned, -⟩
    exact absurd (cleaned.rows _ rfl) (by decide +kernel)

end MailboxExpiry
