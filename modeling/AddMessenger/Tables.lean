import Mathlib.Data.List.AList
import Mathlib.Data.List.Basic
import Mathlib.Logic.Function.Basic

/-!
# Keyed tables and first matches

A hash map whose iteration order nothing depends on, as a partial function;
changing the first element of a list that satisfies a test; the first of each kind in a
list, and a list of rows with a unique column; rows with a primary key, of which some
are deleted.
-/

namespace Tables

universe u v

variable {Key : Type u} {Value : Type v} [DecidableEq Key]

/-- Change the value under one key, if there is one. -/
def modifyAt (table : Key → Option Value) (k : Key) (f : Value → Value) : Key → Option Value :=
  Function.update table k ((table k).map f)

/-- Change the values under several keys, one after the other. -/
def modifyAll (table : Key → Option Value) (keys : List Key) (f : Value → Value) :
    Key → Option Value :=
  keys.foldl (fun t k => modifyAt t k f) table

/-- A change that is the same done twice only depends on the set of keys. -/
theorem modifyAll_apply {f : Value → Value} (idempotent : ∀ v, f (f v) = f v)
    (table : Key → Option Value) (keys : List Key) (k : Key) :
    modifyAll table keys f k = if k ∈ keys then (table k).map f else table k := by
  induction keys generalizing table with
  | nil => rfl
  | cons first rest ih =>
    have unfolded : modifyAll table (first :: rest) f =
      modifyAll (modifyAt table first f) rest f := rfl
    rw [unfolded, ih]
    by_cases here : k = first
    · subst here
      have twice : f ∘ f = f := funext idempotent
      simp [modifyAt, twice]
    · simp [modifyAt, here, List.mem_cons]

/-- What is found under a key of a list is in it. -/
theorem mem_of_lookup {entries : List (Key × Value)} {k : Key} {value : Value}
    (found : entries.lookup k = some value) : (k, value) ∈ entries := by
  obtain ⟨front, back, split, -⟩ := List.lookup_eq_some_iff.mp found
  rw [split]
  exact List.mem_append_right front List.mem_cons_self

variable {Row : Type u}

/-- Change the first row that passes the test. -/
def updateFirst (test : Row → Bool) (f : Row → Row) : List Row → List Row
  | [] => []
  | row :: rest => if test row then f row :: rest else row :: updateFirst test f rest

section

variable {test : Row → Bool} {f : Row → Row}

theorem updateFirst_idempotent (same : ∀ row, test row = true → test (f row) = true)
    (twice : ∀ row, f (f row) = f row) (rows : List Row) :
    updateFirst test f (updateFirst test f rows) = updateFirst test f rows := by
  induction rows with
  | nil => rfl
  | cons row rest ih =>
    cases passes : test row with
    | true => simp only [updateFirst, passes, if_true, same row passes, twice]
    | false => simp only [updateFirst, passes, Bool.false_eq_true, if_false, ih]

/-- What `f` leaves alone is left alone in every row. -/
theorem map_updateFirst {View : Type v} {view : Row → View} (kept : ∀ row, view (f row) = view row)
    (rows : List Row) : (updateFirst test f rows).map view = rows.map view := by
  induction rows with
  | nil => rfl
  | cons row rest ih =>
    cases passes : test row with
    | true => simp only [updateFirst, passes, if_true, List.map_cons, kept]
    | false => simp only [updateFirst, passes, Bool.false_eq_true, if_false, List.map_cons, ih]

theorem updateFirst_of_none {rows : List Row} (none : rows.find? test = none) :
    updateFirst test f rows = rows := by
  induction rows with
  | nil => rfl
  | cons row rest ih =>
    rw [List.find?_cons] at none
    cases passes : test row with
    | true => simp [passes] at none
    | false =>
      simp only [passes] at none
      simp only [updateFirst, passes, Bool.false_eq_true, if_false, ih none]

/-- Only the first match changes. -/
theorem updateFirst_of_some {rows : List Row} {hit : Row} (found : rows.find? test = some hit) :
    ∃ front back, rows = front ++ hit :: back ∧
      updateFirst test f rows = front ++ f hit :: back := by
  induction rows with
  | nil => exact nomatch found
  | cons row rest ih =>
    rw [List.find?_cons] at found
    cases passes : test row with
    | true =>
      simp only [passes, Option.some.injEq] at found
      subst found
      exact ⟨[], rest, rfl, by simp [updateFirst, passes]⟩
    | false =>
      simp only [passes] at found
      obtain ⟨front, back, split, updated⟩ := ih found
      exact ⟨row :: front, back, by rw [split, List.cons_append],
        by simp [updateFirst, passes, updated]⟩

/-- Erasing takes out the first match. -/
theorem eraseP_of_find {rows : List Row} {hit : Row} (found : rows.find? test = some hit) :
    ∃ front back, rows = front ++ hit :: back ∧ rows.eraseP test = front ++ back := by
  obtain ⟨passes, front, back, split, before⟩ := List.find?_eq_some_iff_append.mp found
  refine ⟨front, back, split, ?_⟩
  rw [split, List.eraseP_append_right _ (by simpa using before), List.eraseP_cons_of_pos passes]

end

/-- The rows whose key is not among the seen ones, nor among those of the rows before. -/
def firsts (key : Row → Key) : List Key → List Row → List Row
  | _, [] => []
  | seen, row :: rest =>
    if key row ∈ seen then firsts key seen rest else row :: firsts key (key row :: seen) rest

section

variable {key : Row → Key}

theorem mem_firsts {seen : List Key} {rows : List Row} {row : Row} :
    row ∈ firsts key seen rows ↔ key row ∉ seen ∧
      ∃ front back, rows = front ++ row :: back ∧ ∀ earlier ∈ front, key earlier ≠ key row := by
  induction rows generalizing seen with
  | nil => simp [firsts]
  | cons first rest ih =>
    rw [firsts]
    split
    · rename_i known
      rw [ih]
      constructor
      · rintro ⟨unseen, front, back, rfl, before⟩
        refine ⟨unseen, first :: front, back, rfl, List.forall_mem_cons.mpr ⟨?_, before⟩⟩
        intro same
        exact unseen (same ▸ known)
      · rintro ⟨unseen, front, back, split, before⟩
        cases front with
        | nil =>
          cases split
          exact absurd known unseen
        | cons _ front =>
          cases split
          exact ⟨unseen, front, back, rfl, (List.forall_mem_cons.mp before).2⟩
    · rename_i unknown
      rw [List.mem_cons, ih]
      constructor
      · rintro (rfl | ⟨unseen, front, back, rfl, before⟩)
        · exact ⟨unknown, [], rest, rfl, by simp⟩
        · obtain ⟨other, unseen⟩ := List.ne_and_not_mem_of_not_mem_cons unseen
          exact ⟨unseen, first :: front, back, rfl,
            List.forall_mem_cons.mpr ⟨Ne.symm other, before⟩⟩
      · rintro ⟨unseen, front, back, split, before⟩
        cases front with
        | nil =>
          cases split
          exact .inl rfl
        | cons _ front =>
          cases split
          obtain ⟨other, before⟩ := List.forall_mem_cons.mp before
          refine .inr ⟨?_, front, back, rfl, before⟩
          exact List.not_mem_cons_of_ne_of_not_mem (Ne.symm other) unseen

/-- What comes first in the front comes first in the whole. -/
theorem firsts_append (seen : List Key) (front back : List Row) :
    ∃ more, firsts key seen (front ++ back) = firsts key seen front ++ more := by
  induction front generalizing seen with
  | nil => exact ⟨_, rfl⟩
  | cons row rest ih =>
    rw [List.cons_append, firsts, firsts]
    split
    · exact ih seen
    · obtain ⟨more, split⟩ := ih (key row :: seen)
      exact ⟨more, by rw [split, List.cons_append]⟩

theorem firsts_nodup (seen : List Key) (rows : List Row) :
    ((firsts key seen rows).map key).Nodup := by
  induction rows generalizing seen with
  | nil => exact List.nodup_nil
  | cons first rest ih =>
    rw [firsts]
    split
    · exact ih seen
    · rw [List.map_cons, List.nodup_cons]
      refine ⟨?_, ih _⟩
      intro again
      obtain ⟨row, member, same⟩ := List.mem_map.mp again
      exact (mem_firsts.mp member).1 (same ▸ List.mem_cons_self)

end

/-- Exactly one row of a list without repetitions passes the test. -/
theorem countP_eq_one_iff {rows : List Row} (nodup : rows.Nodup) {test : Row → Bool} :
    rows.countP test = 1 ↔ ∃! row, row ∈ rows ∧ test row = true := by
  have passing := nodup.filter test
  simp only [List.countP_eq_length_filter, ← List.mem_filter]
  generalize rows.filter test = kept at passing
  constructor
  · intro one
    obtain ⟨row, rfl⟩ := List.length_eq_one_iff.mp one
    exact ⟨row, List.mem_singleton_self row, fun other member => List.mem_singleton.mp member⟩
  · rintro ⟨row, member, unique⟩
    match kept, passing with
    | [], _ => cases member
    | [_], _ => rfl
    | a :: b :: rest, passing =>
      have same : a = b := (unique a List.mem_cons_self).trans
        (unique b (List.mem_cons_of_mem a List.mem_cons_self)).symm
      exact absurd (same ▸ List.mem_cons_self) (List.nodup_cons.mp passing).1

/-- `INSERT OR IGNORE`: a row whose column is taken is dropped. -/
def insertNew (column : Row → Key) (rows : List Row) (row : Row) : List Row :=
  if rows.any fun old => column old == column row then rows else rows ++ [row]

/-- Nothing is there but the old rows and some of those that were added. -/
theorem foldl_insertNew_sublist (column : Row → Key) (added rows : List Row) :
    (added.foldl (insertNew column) rows).Sublist (rows ++ added) := by
  induction added generalizing rows with
  | nil => exact List.sublist_append_left rows []
  | cons row rest ih =>
    have one : (insertNew column rows row).Sublist (rows ++ [row]) := by
      rw [insertNew]
      split
      · exact List.sublist_append_left rows [row]
      · exact List.Sublist.refl _
    rw [List.foldl_cons, List.append_cons]
    exact (ih _).trans (one.append (List.Sublist.refl rest))

/-- All rows get in exactly where their columns are new and differ from each other. -/
theorem foldl_insertNew_eq_append_iff {column : Row → Key} (added rows : List Row) :
    added.foldl (insertNew column) rows = rows ++ added ↔
      (∀ row ∈ added, column row ∉ rows.map column) ∧ (added.map column).Nodup := by
  induction added generalizing rows with
  | nil => simp
  | cons row rest ih =>
    by_cases taken : column row ∈ rows.map column
    · have dropped : insertNew column rows row = rows := by
        obtain ⟨old, member, same⟩ := List.mem_map.mp taken
        refine if_pos (List.any_eq_true.mpr ⟨old, member, ?_⟩)
        exact beq_iff_eq.mpr same
      constructor
      · intro all
        have short := (foldl_insertNew_sublist column rest rows).length_le
        rw [List.foldl_cons, dropped] at all
        rw [all, List.length_append, List.length_append, List.length_cons] at short
        omega
      · rintro ⟨fresh, -⟩
        exact absurd taken (fresh row List.mem_cons_self)
    · have kept : insertNew column rows row = rows ++ [row] := by
        refine if_neg ?_
        intro found
        obtain ⟨old, member, same⟩ := List.any_eq_true.mp found
        exact taken (List.mem_map.mpr ⟨old, member, beq_iff_eq.mp same⟩)
      rw [List.foldl_cons, kept, List.append_cons rows row rest, ih, List.forall_mem_cons,
        List.map_cons, List.nodup_cons, List.map_append, List.map_singleton]
      simp only [List.mem_append, List.mem_singleton, not_or]
      constructor
      · rintro ⟨fresh, nodup⟩
        refine ⟨⟨taken, fun other member => (fresh other member).1⟩, ?_, nodup⟩
        intro again
        obtain ⟨other, member, same⟩ := List.mem_map.mp again
        exact (fresh other member).2 same
      · rintro ⟨⟨-, fresh⟩, different, nodup⟩
        refine ⟨fun other member => ⟨fresh other member, ?_⟩, nodup⟩
        intro same
        exact different (List.mem_map.mpr ⟨other, member, same⟩)

section

variable {Entry : Key → Type v}

/-- The entries that pass the test. -/
def keep (test : Sigma Entry → Bool) (table : AList Entry) : AList Entry :=
  ⟨table.entries.filter test, table.nodupKeys.sublist List.filter_sublist⟩

omit [DecidableEq Key] in
@[simp] theorem entries_keep (test : Sigma Entry → Bool) (table : AList Entry) :
    (keep test table).entries = table.entries.filter test := rfl

theorem lookup_keep (test : Sigma Entry → Bool) (table : AList Entry) (k : Key) :
    (keep test table).lookup k = (table.lookup k).filter fun entry => test ⟨k, entry⟩ := by
  ext entry
  rw [← Option.mem_def, AList.mem_lookup_iff, Option.filter_eq_some_iff]
  constructor
  · intro member
    obtain ⟨there, passes⟩ := List.mem_filter.mp member
    exact ⟨AList.mem_lookup_iff.mpr there, passes⟩
  · rintro ⟨found, passes⟩
    exact List.mem_filter.mpr ⟨AList.mem_lookup_iff.mp found, passes⟩

/-- A new key adds a row, a known one does not. -/
theorem length_insert (table : AList Entry) (k : Key) (entry : Entry k) :
    (table.insert k entry).entries.length =
      if (table.lookup k).isSome then table.entries.length else table.entries.length + 1 := by
  have keys : ∀ l : List (Sigma Entry), l.keys.length = l.length := fun l => List.length_map _
  rw [AList.entries_insert, List.length_cons, ← keys (List.kerase k table.entries),
    List.keys_kerase, ← keys table.entries]
  by_cases known : k ∈ table.entries.keys
  · have positive : 0 < table.entries.keys.length := List.length_pos_of_mem known
    rw [if_pos (AList.lookup_isSome.mpr known), List.length_erase_of_mem known]
    omega
  · rw [if_neg fun found => known (AList.lookup_isSome.mp found), List.erase_of_not_mem known]

theorem length_erase {table : AList Entry} {k : Key} (known : k ∈ table) :
    (table.erase k).entries.length + 1 = table.entries.length := by
  have keys : ∀ t : AList Entry, t.keys.length = t.entries.length := fun t => List.length_map _
  have positive : 0 < table.keys.length := List.length_pos_of_mem (AList.mem_keys.mp known)
  rw [← keys, ← keys, AList.keys_erase, List.length_erase_of_mem (AList.mem_keys.mp known)]
  omega

/-- Every value changed, under its own key. -/
def mapValues (f : ∀ k, Entry k → Entry k) (table : AList Entry) : AList Entry :=
  ⟨table.entries.map (Sigma.map id f), table.nodupKeys.map₂ f⟩

theorem lookup_mapValues (f : ∀ k, Entry k → Entry k) (table : AList Entry) (k : Key) :
    (mapValues f table).lookup k = (table.lookup k).map (f k) :=
  List.dlookup_map₂ k

theorem mem_insert_entries {table : AList Entry} {k : Key} {entry : Entry k} {e : Sigma Entry}
    (member : e ∈ (table.insert k entry).entries) : e = ⟨k, entry⟩ ∨ e ∈ table.entries := by
  rw [AList.entries_insert] at member
  rcases List.mem_cons.mp member with same | later
  · exact .inl same
  · exact .inr ((List.kerase_sublist k table.entries).subset later)

end

end Tables
