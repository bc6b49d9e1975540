import Mathlib.Algebra.Order.Group.Defs
import Mathlib.Data.List.Basic

/-!
# Sliding windows

A limiter remembers the times of what it let pass and forgets those that lie further back than
one window. Its log stands for all times that passed: read at any later time, the two have the
same recent part. A time that finds less than the bound in the recent part can pass, and no
window ever contains more than the bound.
-/

namespace SlidingWindow

universe u

variable {Time : Type u} [AddCommGroup Time] [LinearOrder Time]

/-- The times that lie at most one window back. -/
def recent (window now : Time) (times : List Time) : List Time :=
  times.filter (now - window ≤ ·)

/-- No window contains more than `bound` of the times. -/
def Bounded (bound : ℕ) (window : Time) (times : List Time) : Prop :=
  ∀ start, times.countP (fun t => start ≤ t ∧ t ≤ start + window) ≤ bound

/-- The log stands for the times that passed, none of which is later than `last`. -/
structure Stands (bound : ℕ) (window last : Time) (log passed : List Time) : Prop where
  before : ∀ t ∈ passed, t ≤ last
  same : ∀ now, last ≤ now → recent window now log = recent window now passed
  bounded : Bounded bound window passed

variable {bound : ℕ} {window last now : Time} {log passed : List Time}

theorem recent_append (window now : Time) (front back : List Time) :
    recent window now (front ++ back) = recent window now front ++ recent window now back :=
  List.filter_append ..

theorem stands_nil (bound : ℕ) (window last : Time) : Stands bound window last [] [] where
  before := fun _ member => absurd member List.not_mem_nil
  same := fun _ _ => rfl
  bounded := fun _ => Nat.zero_le bound

theorem Stands.later (stands : Stands bound window last log passed) (later : last ≤ now) :
    Stands bound window now log passed where
  before t member := (stands.before t member).trans later
  same _ still := stands.same _ (later.trans still)
  bounded := stands.bounded

variable [IsOrderedAddMonoid Time]

/-- What is recent later is recent now. -/
theorem recent_recent {later : Time} (le : now ≤ later) (times : List Time) :
    recent window later (recent window now times) = recent window later times := by
  rw [recent, recent, recent, List.filter_filter]
  refine List.filter_congr fun t _ => ?_
  have cutoffs : now - window ≤ later - window := sub_le_sub_right le window
  simpa using fun recent => cutoffs.trans recent

/-- Forgetting what is not recent. -/
theorem Stands.forget (stands : Stands bound window last log passed) (later : last ≤ now) :
    Stands bound window now (recent window now log) passed where
  before := (stands.later later).before
  same n still := by rw [recent_recent still, stands.same n (later.trans still)]
  bounded := stands.bounded

/-- A time that passes is the last one of every window it lies in. -/
theorem Stands.pass (stands : Stands bound window last log passed) (later : last ≤ now)
    (room : (recent window now log).length < bound) :
    Stands bound window now (recent window now log ++ [now]) (passed ++ [now]) where
  before := by
    intro t member
    rcases List.mem_append.mp member with old | new
    · exact (stands.before t old).trans later
    · exact (List.mem_singleton.mp new).le
  same n still := by
    rw [recent_append, recent_append, (stands.forget later).same n still]
  bounded start := by
    rw [List.countP_append, List.countP_singleton]
    split
    · rename_i inside
      obtain ⟨begins, ends⟩ := of_decide_eq_true inside
      have fewer : passed.countP (fun t => start ≤ t ∧ t ≤ start + window) ≤
          passed.countP (now - window ≤ ·) := by
        refine List.countP_mono_left fun t _ within => decide_eq_true ?_
        exact (sub_le_iff_le_add.mpr ends).trans (of_decide_eq_true within).1
      rw [stands.same now later, recent, ← List.countP_eq_length_filter] at room
      omega
    · exact stands.bounded start

end SlidingWindow
