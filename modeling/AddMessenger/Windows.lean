import AddMessenger.Tables
import Mathlib.Data.List.Sort

/-!
# Numbered entries, of which the highest are kept

A table of numbers and values with a cap. The first value under a number stays; when there
are too many, the lowest number goes. If the numbers come one after the other, or again,
the table always holds the last ones: a window below the next number.
-/

namespace Windows

universe u

variable {Value : Type u}

def insertHighest (cap : Nat) (table : List (Nat × Value)) (n : Nat) (value : Value) :
    List (Nat × Value) :=
  if table.any fun e => e.1 == n then table
  else
    let table := table ++ [(n, value)]
    if cap < table.length then (table.mergeSort fun a b => a.1 ≤ b.1).drop 1 else table

/-- The entries of the last `cap` numbers below `top`. -/
def window (values : Nat → Value) (cap top : Nat) : List (Nat × Value) :=
  (List.range' (top - cap) (top - (top - cap))).map fun n => (n, values n)

/-- The table holds the window, in any order. -/
def Holds (values : Nat → Value) (cap top : Nat) (table : List (Nat × Value)) : Prop :=
  table.Perm (window values cap top)

variable {values : Nat → Value} {cap top n : Nat} {table : List (Nat × Value)} {value : Value}

theorem holds_nil : Holds values cap 0 ([] : List (Nat × Value)) := by simp [Holds, window]

/-- The values from `top` on do not matter. -/
theorem Holds.congr {others : Nat → Value} (holds : Holds values cap top table)
    (same : ∀ n < top, values n = others n) : Holds others cap top table := by
  have equal : window values cap top = window others cap top := by
    refine List.map_congr_left fun n member => ?_
    rw [same n (by rw [List.mem_range'_1] at member; omega)]
  rw [Holds, ← equal]
  exact holds

theorem length_window : (window values cap top).length = top - (top - cap) := by simp [window]

theorem mem_window {e : Nat × Value} :
    e ∈ window values cap top ↔ top - cap ≤ e.1 ∧ e.1 < top ∧ e.2 = values e.1 := by
  simp only [window, List.mem_map, List.mem_range'_1]
  constructor
  · rintro ⟨n, ⟨low, high⟩, rfl⟩
    exact ⟨low, by omega, rfl⟩
  · rintro ⟨low, high, same⟩
    exact ⟨e.1, ⟨low, by omega⟩, Prod.ext rfl same.symm⟩

theorem pairwise_window : (window values cap top).Pairwise fun a b => a.1 < b.1 :=
  List.pairwise_map.mpr (List.pairwise_lt_range' 1)

theorem nodup_numbers {sorted : List (Nat × Value)}
    (ascending : sorted.Pairwise fun a b => a.1 < b.1) : (sorted.map Prod.fst).Nodup :=
  List.pairwise_map.mpr (ascending.imp Nat.ne_of_lt)

/-- Sorting by number puts a table in the order of any ascending listing of it. -/
theorem mergeSort_eq {sorted : List (Nat × Value)} (perm : table.Perm sorted)
    (ascending : sorted.Pairwise fun a b => a.1 < b.1) :
    table.mergeSort (fun a b => a.1 ≤ b.1) = sorted := by
  have same := (List.mergeSort_perm table fun a b => a.1 ≤ b.1).trans perm
  have weakly : sorted.Pairwise fun a b => a.1 ≤ b.1 := ascending.imp Nat.le_of_lt
  refine same.eq_of_pairwise ?_ ?_ weakly
  · intro a b first second below above
    exact List.inj_on_of_nodup_map (nodup_numbers ascending) (same.subset first) second
      (Nat.le_antisymm below above)
  · refine (List.pairwise_mergeSort ?_ ?_ table).imp of_decide_eq_true
    · intro a b c first second
      exact decide_eq_true ((of_decide_eq_true first).trans (of_decide_eq_true second))
    · intro a b
      simpa using Nat.le_total a.1 b.1

theorem any_number (holds : Holds values cap top table) :
    (table.any fun e => e.1 == n) = true ↔ top - cap ≤ n ∧ n < top := by
  rw [List.any_eq_true]
  constructor
  · rintro ⟨e, member, here⟩
    obtain ⟨low, high, -⟩ := mem_window.mp (holds.subset member)
    rw [← beq_iff_eq.mp here]
    exact ⟨low, high⟩
  · rintro ⟨low, high⟩
    exact ⟨(n, values n), holds.mem_iff.mpr (mem_window.mpr ⟨low, high, rfl⟩), beq_self_eq_true n⟩

theorem length_of_holds (holds : Holds values cap top table) :
    table.length = top - (top - cap) := by
  rw [holds.length_eq, length_window]

/-- The next number moves the window. -/
theorem insertHighest_next (holds : Holds values cap top table) :
    Holds values cap (top + 1) (insertHighest cap table top (values top)) := by
  have absent : ¬ (table.any fun e => e.1 == top) = true := by
    rw [any_number holds]
    omega
  have grown : (table ++ [(top, values top)]).Perm
      ((List.range' (top - cap) (top - (top - cap) + 1)).map fun n => (n, values n)) := by
    have last : top - cap + (top - (top - cap)) = top := by omega
    rw [List.range'_concat, List.map_append, Nat.one_mul, last]
    exact holds.append_right _
  rw [insertHighest, if_neg absent]
  have length := length_of_holds holds
  simp only [List.length_append, List.length_singleton, length]
  split
  · next full =>
    have low : top + 1 - cap = top - cap + 1 := by omega
    have size : top + 1 - (top - cap + 1) = top - (top - cap) := by omega
    rw [mergeSort_eq grown (List.pairwise_map.mpr (List.pairwise_lt_range' 1)), List.range'_succ,
      List.map_cons, List.drop_succ_cons, List.drop_zero, Holds, window, low, size]
  · next room =>
    have low : top + 1 - cap = top - cap := by omega
    have size : top + 1 - (top - cap) = top - (top - cap) + 1 := by omega
    rw [Holds, window, low, size]
    exact grown

/-- An earlier number is there, or it is lower than the window and goes again. -/
theorem insertHighest_again (holds : Holds values cap top table) (value : Value)
    (earlier : n < top) : Holds values cap top (insertHighest cap table n value) := by
  rw [insertHighest]
  split
  · exact holds
  · next absent =>
    rw [any_number holds] at absent
    have below : n < top - cap := by omega
    have length := length_of_holds holds
    have full : cap < (table ++ [(n, value)]).length := by
      rw [List.length_append, List.length_singleton, length]
      omega
    have grown : (table ++ [(n, value)]).Perm ((n, value) :: window values cap top) :=
      (List.perm_append_singleton _ _).trans (holds.cons _)
    have ascending : ((n, value) :: window values cap top).Pairwise fun a b => a.1 < b.1 := by
      refine List.pairwise_cons.mpr ⟨fun e member => ?_, pairwise_window⟩
      exact below.trans_le (mem_window.mp member).1
    simp only [if_pos full, mergeSort_eq grown ascending, List.drop_succ_cons, List.drop_zero]
    exact List.Perm.refl _

/-- A number of the window is found with its value. -/
theorem lookup_of_holds (holds : Holds values cap top table) (low : top ≤ n + cap)
    (high : n < top) : table.lookup n = some (values n) := by
  have there : (table.lookup n).isSome := by
    obtain ⟨e, member, here⟩ := List.any_eq_true.mp ((any_number holds).mpr ⟨by omega, high⟩)
    rw [List.lookup_isSome_iff]
    exact ⟨e, member, beq_iff_eq.mpr (beq_iff_eq.mp here).symm⟩
  obtain ⟨found, here⟩ := Option.isSome_iff_exists.mp there
  have right : found = values n :=
    (mem_window.mp (holds.subset (Tables.mem_of_lookup here))).2.2
  rw [here, right]

end Windows
