import AddMessenger.RelayMailbox

/-!
# What a purge removes

`purge_all_messages` of `relay/src/main.rs` against what it is asked for: the
messages of one recipient, from one sender or from all. In memory the filter
`None` drops nothing. In the table the filter by sender is an operand of the
last element of the second `IN` list, so it does not restrict the rows selected
by tag, and the recipient is compared with a truth value.
-/

namespace RelayMailbox

open Mealy Tables

variable (cfg : Config)

/-- The messages a purge names: those of one sender, or all. -/
def named (senderFp : Option String) (fp : String) : Bool := senderFp.all fun x => fp = x

/-- After the purge, the messages `recipientNid` can fetch at `readNow` are those
it could fetch before less the named ones, in memory and in the table; what is
not addressed to one of its keys is as it was. -/
structure PurgesExactly (s : RelayState) (recipientNid : String) (senderFp : Option String)
    (now : UInt64) (sqlOk : Bool) (readNow : UInt64) : Prop where
  memory : ∀ k ∈ mailboxKeys cfg recipientNid now,
    ((purgeAllMessages cfg s recipientNid senderFp now sqlOk).mailboxes k).map
        (Mailbox.fetchAll · readNow) =
      (s.mailboxes k).map fun mb =>
        (mb.fetchAll readNow).filter fun e => !named senderFp e.senderFp
  otherMailboxes : ∀ k, k ∉ mailboxKeys cfg recipientNid now →
    (purgeAllMessages cfg s recipientNid senderFp now sqlOk).mailboxes k = s.mailboxes k
  rows : (purgeAllMessages cfg s recipientNid senderFp now sqlOk).db.map
      (List.filter (Row.pending (mailboxKeys cfg recipientNid now))) =
    s.db.map fun rows => (rows.filter (Row.pending (mailboxKeys cfg recipientNid now))).filter
      fun row => !named senderFp row.senderFp
  otherRows : (purgeAllMessages cfg s recipientNid senderFp now sqlOk).db.map
      (List.filter fun row => !row.addressed (mailboxKeys cfg recipientNid now)) =
    s.db.map (List.filter fun row => !row.addressed (mailboxKeys cfg recipientNid now))

/-- The text SQLite compares the column `recipient_nid` with, for the last element
`nid AND sender_fp = fp` of the list. -/
def truthText (recipientNid fp : String) (row : Row) : String :=
  if cfg.sqlTruthy recipientNid ∧ row.senderFp = fp then "1" else "0"

/-- The statement with a sender treats this row as asked. A delivered row cannot be
fetched, so only what is not addressed to the recipient matters of those. -/
def Row.SparedRightly (recipientNid fp : String) (now : UInt64) (row : Row) : Prop :=
  if row.recipientTag ∈ mailboxKeys cfg recipientNid now ∨
      row.recipientNid ∈ mailboxTags cfg recipientNid now then
    row.delivered ∨ row.senderFp = fp
  else if row.recipientNid = recipientNid then
    row.delivered ∨ (row.senderFp = fp ↔ recipientNid = truthText cfg recipientNid fp row)
  else row.recipientNid ≠ truthText cfg recipientNid fp row

/-- The states in which the purge does what it is asked for. -/
structure Purgeable (s : RelayState) (recipientNid : String) (senderFp : Option String)
    (now : UInt64) (sqlOk : Bool) (readNow : UInt64) : Prop where
  memory : senderFp = none → ∀ k ∈ mailboxKeys cfg recipientNid now,
    ∀ mb, s.mailboxes k = some mb → ∀ e ∈ mb.entries, ¬ Mailbox.isLive readNow e
  failed : sqlOk = false → ∀ rows, s.db = some rows → ∀ row ∈ rows,
    row.pending (mailboxKeys cfg recipientNid now) → ¬ named senderFp row.senderFp
  table : sqlOk = true → ∀ fp, senderFp = some fp → ∀ rows, s.db = some rows → ∀ row ∈ rows,
    row.SparedRightly cfg recipientNid fp now

/-- Two filters agree on a list exactly when they agree on its elements. -/
theorem filter_eq_filter_iff {Item : Type} (p q : Item → Bool) (xs : List Item) :
    xs.filter p = xs.filter q ↔ ∀ x ∈ xs, p x = q x := by
  constructor
  · intro same x member
    have iff : x ∈ xs.filter p ↔ x ∈ xs.filter q := by rw [same]
    rw [List.mem_filter, List.mem_filter, and_iff_right member, and_iff_right member] at iff
    exact Bool.eq_iff_iff.mpr iff
  · exact List.filter_congr

/-- With a sender one mailbox is purged as asked; without one, only if there is
nothing to fetch in it. -/
theorem retainOthers_right_iff (senderFp : Option String) (readNow : UInt64) (mb : Mailbox) :
    (mb.retainOthers senderFp).fetchAll readNow =
        (mb.fetchAll readNow).filter (fun e => !named senderFp e.senderFp) ↔
      (senderFp = none → ∀ e ∈ mb.entries, ¬ Mailbox.isLive readNow e) := by
  cases senderFp with
  | some fp =>
    refine iff_of_true ?_ nofun
    rw [Mailbox.fetchAll, Mailbox.fetchAll, Mailbox.retainOthers, List.filter_filter,
      List.filter_filter]
    refine List.filter_congr fun e _ => ?_
    simp [named, Bool.and_comm]
  | none =>
    have kept : mb.retainOthers none = mb := by simp [Mailbox.retainOthers]
    have none : (mb.fetchAll readNow).filter (fun e => !named none e.senderFp) = [] := by
      simp [named]
    rw [kept, none, Mailbox.fetchAll, List.filter_eq_nil_iff]
    exact ⟨fun empty _ => empty, fun empty => empty rfl⟩

variable (s : RelayState) (recipientNid : String) (now : UInt64)

theorem memory_purged_iff (senderFp : Option String) (sqlOk : Bool) (readNow : UInt64) :
    (∀ k ∈ mailboxKeys cfg recipientNid now,
      ((purgeAllMessages cfg s recipientNid senderFp now sqlOk).mailboxes k).map
          (Mailbox.fetchAll · readNow) =
        (s.mailboxes k).map fun mb =>
          (mb.fetchAll readNow).filter fun e => !named senderFp e.senderFp) ↔
    (senderFp = none → ∀ k ∈ mailboxKeys cfg recipientNid now,
      ∀ mb, s.mailboxes k = some mb → ∀ e ∈ mb.entries, ¬ Mailbox.isLive readNow e) := by
  constructor
  · intro right all k own mb held
    have here := right k own
    rw [purgeAllMessages_mailboxes, if_pos own, held] at here
    exact (retainOthers_right_iff senderFp readNow mb).mp (Option.some.inj here) all
  · intro empty k own
    rw [purgeAllMessages_mailboxes, if_pos own, Option.map_map]
    cases held : s.mailboxes k with
    | none => rfl
    | some mb =>
      refine congrArg some ((retainOthers_right_iff senderFp readNow mb).mpr fun all => ?_)
      exact empty all k own mb held

theorem otherMailboxes_kept (senderFp : Option String) (sqlOk : Bool) (k : String)
    (other : k ∉ mailboxKeys cfg recipientNid now) :
    (purgeAllMessages cfg s recipientNid senderFp now sqlOk).mailboxes k = s.mailboxes k := by
  rw [purgeAllMessages_mailboxes, if_neg other]

theorem purgeAllMessages_db (senderFp : Option String) (sqlOk : Bool) :
    (purgeAllMessages cfg s recipientNid senderFp now sqlOk).db =
      if sqlOk then s.db.map (List.filter fun row =>
        !row.purged cfg (mailboxTags cfg recipientNid now) recipientNid senderFp)
      else s.db := by
  rw [purgeAllMessages, execute_db]

/-- Without a sender the statement selects the rows of the recipient. -/
theorem purged_none (row : Row) :
    row.purged cfg (mailboxTags cfg recipientNid now) recipientNid none =
      row.addressed (mailboxKeys cfg recipientNid now) :=
  rfl

theorem purged_some_iff (fp : String) (row : Row) :
    row.purged cfg (mailboxTags cfg recipientNid now) recipientNid (some fp) ↔
      row.recipientTag ∈ mailboxKeys cfg recipientNid now ∨
        row.recipientNid ∈ mailboxTags cfg recipientNid now ∨
          row.recipientNid = truthText cfg recipientNid fp row := by
  simp [Row.purged, mailboxKeys, truthText]

theorem addressed_iff (row : Row) :
    row.addressed (mailboxKeys cfg recipientNid now) ↔
      row.recipientTag ∈ mailboxKeys cfg recipientNid now ∨
        row.recipientNid ∈ mailboxTags cfg recipientNid now ∨ row.recipientNid = recipientNid := by
  simp [Row.addressed, mailboxKeys]

/-- A row is selected rightly if it is selected because it is named, or is left
because it is not; a delivered row need only be left when it is not addressed. -/
def Row.SelectedRightly (selected : Bool) (senderFp : Option String) (keys : List String)
    (row : Row) : Prop :=
  if row.addressed keys then row.delivered ∨ selected = named senderFp row.senderFp
  else selected = false

/-- A statement that fails selects nothing. -/
theorem selectedRightly_false_iff (senderFp : Option String) (keys : List String) (row : Row) :
    row.SelectedRightly false senderFp keys ↔
      (row.pending keys → ¬ named senderFp row.senderFp) := by
  unfold Row.SelectedRightly Row.pending
  cases row.addressed keys <;> cases row.delivered <;> cases named senderFp row.senderFp <;> simp

theorem selectedRightly_none (row : Row) :
    row.SelectedRightly (row.purged cfg (mailboxTags cfg recipientNid now) recipientNid none)
      none (mailboxKeys cfg recipientNid now) := by
  rw [Row.SelectedRightly, purged_none]
  split
  · rename_i own
    exact .inr own
  · rename_i other
    exact Bool.eq_false_of_not_eq_true other

theorem selectedRightly_some_iff (fp : String) (row : Row) :
    row.SelectedRightly (row.purged cfg (mailboxTags cfg recipientNid now) recipientNid (some fp))
        (some fp) (mailboxKeys cfg recipientNid now) ↔
      row.SparedRightly cfg recipientNid fp now := by
  have selected := purged_some_iff cfg recipientNid now fp row
  have own := addressed_iff cfg recipientNid now row
  rw [Row.SelectedRightly, Row.SparedRightly]
  by_cases tagged : row.recipientTag ∈ mailboxKeys cfg recipientNid now ∨
      row.recipientNid ∈ mailboxTags cfg recipientNid now
  · have isOwn := own.mpr (or_assoc.mp (.inl tagged))
    have isSelected := selected.mpr (or_assoc.mp (.inl tagged))
    rw [if_pos tagged, if_pos isOwn, isSelected]
    simp [named]
  · rw [if_neg tagged]
    rw [← or_assoc, or_iff_right tagged] at own selected
    by_cases same : row.recipientNid = recipientNid
    · have isNamed : named (some fp) row.senderFp = true ↔ row.senderFp = fp := by
        simp [named, eq_comm]
      rw [if_pos same, if_pos (own.mpr same), Bool.eq_iff_iff (a := row.purged cfg _ _ _), selected,
        isNamed, same, iff_comm (b := row.senderFp = fp)]
    · rw [if_neg same, if_neg (mt own.mp same), ← Bool.not_eq_true, selected]

/-- A statement that deletes the selected rows deletes what can be fetched and is
named, and nothing addressed elsewhere, exactly when it selects every row rightly. -/
theorem rows_purged_iff (selected : Row → Bool) (senderFp : Option String) (keys : List String)
    (rows : List Row) :
    ((rows.filter fun row => !selected row).filter (Row.pending keys) =
        (rows.filter (Row.pending keys)).filter (fun row => !named senderFp row.senderFp) ∧
      (rows.filter fun row => !selected row).filter (fun row => !row.addressed keys) =
        rows.filter fun row => !row.addressed keys) ↔
    ∀ row ∈ rows, row.SelectedRightly (selected row) senderFp keys := by
  rw [List.filter_filter, List.filter_filter, List.filter_filter, filter_eq_filter_iff,
    filter_eq_filter_iff, ← forall₂_and]
  refine forall₂_congr fun row _ => ?_
  unfold Row.SelectedRightly Row.pending
  cases row.addressed keys <;> cases row.delivered <;> cases selected row <;> simp

theorem table_purged_iff (senderFp : Option String) (sqlOk : Bool) :
    ((purgeAllMessages cfg s recipientNid senderFp now sqlOk).db.map
          (List.filter (Row.pending (mailboxKeys cfg recipientNid now))) =
        s.db.map (fun rows => (rows.filter (Row.pending (mailboxKeys cfg recipientNid now))).filter
          fun row => !named senderFp row.senderFp) ∧
      (purgeAllMessages cfg s recipientNid senderFp now sqlOk).db.map
          (List.filter fun row => !row.addressed (mailboxKeys cfg recipientNid now)) =
        s.db.map (List.filter fun row => !row.addressed (mailboxKeys cfg recipientNid now))) ↔
    ∀ rows, s.db = some rows → ∀ row ∈ rows, row.SelectedRightly
      (sqlOk && row.purged cfg (mailboxTags cfg recipientNid now) recipientNid senderFp) senderFp
      (mailboxKeys cfg recipientNid now) := by
  rw [purgeAllMessages_db]
  cases pool : s.db with
  | none => simp
  | some rows =>
    have one := rows_purged_iff (fun row => sqlOk &&
      row.purged cfg (mailboxTags cfg recipientNid now) recipientNid senderFp) senderFp
      (mailboxKeys cfg recipientNid now) rows
    cases sqlOk with
    | true => simpa using one
    | false => simpa using one

/-- The purge leaves what was asked for, in memory and in the table, exactly in the
states where it can. -/
theorem purgesExactly_iff (senderFp : Option String) (sqlOk : Bool) (readNow : UInt64) :
    PurgesExactly cfg s recipientNid senderFp now sqlOk readNow ↔
      Purgeable cfg s recipientNid senderFp now sqlOk readNow := by
  have memory := memory_purged_iff cfg s recipientNid now senderFp sqlOk readNow
  have table := table_purged_iff cfg s recipientNid now senderFp sqlOk
  constructor
  · intro right
    have selected := table.mp ⟨right.rows, right.otherRows⟩
    refine ⟨memory.mp right.memory, ?_, ?_⟩
    · rintro rfl rows held row member
      exact (selectedRightly_false_iff senderFp _ row).mp (selected rows held row member)
    · rintro rfl fp rfl rows held row member
      exact (selectedRightly_some_iff cfg recipientNid now fp row).mp
        (selected rows held row member)
  · intro able
    suffices selected : ∀ rows, s.db = some rows → ∀ row ∈ rows, row.SelectedRightly
        (sqlOk && row.purged cfg (mailboxTags cfg recipientNid now) recipientNid senderFp) senderFp
        (mailboxKeys cfg recipientNid now) by
      obtain ⟨rows, otherRows⟩ := table.mpr selected
      exact ⟨memory.mpr able.memory,
        otherMailboxes_kept cfg s recipientNid now senderFp sqlOk, rows, otherRows⟩
    intro rows held row member
    cases sqlOk with
    | false =>
      exact (selectedRightly_false_iff senderFp _ row).mpr (able.failed rfl rows held row member)
    | true =>
      cases senderFp with
      | none => exact selectedRightly_none cfg recipientNid now row
      | some fp =>
        exact (selectedRightly_some_iff cfg recipientNid now fp row).mpr
          (able.table rfl fp rfl rows held row member)

private def mail (fp blob : String) : Operation :=
  .storeMessage ⟨"bob", "nid", fp, blob, 1⟩ 7200 7200 none

/-- In memory a purge without a sender leaves the mail there; in the table a purge
of one sender also deletes the other sender's row. -/
theorem purge_not_exact :
    ¬ PurgesExactly (sumConfig none)
      (final (step (sumConfig none)) (empty false) [mail "a" "hello"]) "bob" none 7200 true 7200 ∧
    ¬ PurgesExactly (sumConfig (some "secret"))
      (final (step (sumConfig (some "secret"))) (empty true) [mail "a" "hello", mail "b" "hi"])
      "bob" (some "a") 7200 true 7200 := by
  constructor
  · intro right
    exact absurd (right.memory "bob" (by decide)) (by decide +kernel)
  · intro right
    exact absurd right.rows (by decide +kernel)

end RelayMailbox
