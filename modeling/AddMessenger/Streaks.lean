import Mathlib.Data.List.Basic

/-!
# Streaks

The lengths of the runs of marks in a list, and a counter that starts again after each run: it
counts up to a modulus and then begins at zero. How often it comes to a number is a matter of the
lengths alone.
-/

namespace Streaks

/-- The lengths of the runs of marks; the first one has `n` marks before the list. -/
def streaksFrom : ℕ → List Bool → List ℕ
  | n, [] => [n]
  | n, true :: rest => streaksFrom (n + 1) rest
  | n, false :: rest => n :: streaksFrom 0 rest

def streaks (marks : List Bool) : List ℕ := streaksFrom 0 marks

/-- The run that goes on at the end. -/
def lastFrom : ℕ → List Bool → ℕ
  | n, [] => n
  | n, true :: rest => lastFrom (n + 1) rest
  | _, false :: rest => lastFrom 0 rest

def last (marks : List Bool) : ℕ := lastFrom 0 marks

/-- How often a counter modulo `size` comes to `goal` in a run of `n` marks. -/
def hits (size goal n : ℕ) : ℕ := (n + size - goal) / size

def allHits (size goal : ℕ) : List ℕ → ℕ
  | [] => 0
  | n :: lengths => hits size goal n + allHits size goal lengths

/-- How often the counter comes to `goal`, and where it ends. -/
def counted (size goal : ℕ) : ℕ → List Bool → ℕ × ℕ
  | c, [] => (0, c)
  | _, false :: rest => counted size goal 0 rest
  | c, true :: rest =>
    let next := (c + 1) % size
    let (more, final) := counted size goal next rest
    ((if next = goal then 1 else 0) + more, final)

section

variable {size goal : ℕ}

theorem hits_zero (positive : 0 < goal) (less : goal < size) : hits size goal 0 = 0 := by
  apply Nat.div_eq_of_lt
  omega

/-- One more mark is a hit when the counter then stands at the goal. -/
theorem hits_succ (positive : 0 < goal) (less : goal < size) (n : ℕ) :
    hits size goal (n + 1) = hits size goal n + if (n + 1) % size = goal then 1 else 0 := by
  have split : n + size - goal = size * ((n + size - goal) / size) + (n + size - goal) % size :=
    (Nat.div_add_mod _ _).symm
  have small : (n + size - goal) % size < size := Nat.mod_lt _ (by omega)
  generalize quotient : (n + size - goal) / size = q at split
  generalize remainder : (n + size - goal) % size = r at split small
  have next : n + 1 + size - goal = size * q + (r + 1) := by omega
  have place : n + 1 + size = size * q + (r + 1 + goal) := by omega
  have counter : (n + 1) % size = (r + 1 + goal) % size := by
    rw [← Nat.add_mod_right, place, Nat.mul_add_mod]
  rw [hits, hits, next, counter, quotient, Nat.mul_add_div (by omega)]
  by_cases wraps : r + 1 = size
  · rw [wraps, Nat.div_self (by omega), Nat.add_mod_left, Nat.mod_eq_of_lt less, if_pos rfl]
  · have inside : r + 1 < size := by omega
    have misses : (r + 1 + goal) % size ≠ goal := by
      by_cases over_size : r + 1 + goal < size
      · rw [Nat.mod_eq_of_lt over_size]
        omega
      · have less_twice : r + 1 + goal - size < size := by omega
        rw [Nat.mod_eq_sub_mod (by omega), Nat.mod_eq_of_lt less_twice]
        omega
    rw [Nat.div_eq_of_lt inside, if_neg misses]

/-- A run too short for the goal has no hit. -/
theorem hits_eq_zero_iff (positive : 0 < goal) (less : goal < size) {n : ℕ} :
    hits size goal n = 0 ↔ n < goal := by
  rw [hits, Nat.div_eq_zero_iff]
  omega

theorem allHits_eq_zero_iff (positive : 0 < goal) (less : goal < size) (lengths : List ℕ) :
    allHits size goal lengths = 0 ↔ ∀ n ∈ lengths, n < goal := by
  induction lengths with
  | nil => exact iff_of_true rfl fun n member => absurd member List.not_mem_nil
  | cons n lengths ih =>
    rw [allHits, Nat.add_eq_zero_iff, hits_eq_zero_iff positive less, ih, List.forall_mem_cons]

theorem lastFrom_mem (n : ℕ) (marks : List Bool) : lastFrom n marks ∈ streaksFrom n marks := by
  induction marks generalizing n with
  | nil => exact List.mem_cons_self
  | cons mark rest ih =>
    cases mark with
    | true => exact ih (n + 1)
    | false => exact List.mem_cons_of_mem n (ih 0)

/-- The counter knows the lengths of the runs only. -/
theorem counted_eq (positive : 0 < goal) (less : goal < size) (n : ℕ) (marks : List Bool) :
    (counted size goal (n % size) marks).1 + hits size goal n =
        allHits size goal (streaksFrom n marks) ∧
      (counted size goal (n % size) marks).2 = lastFrom n marks % size := by
  induction marks generalizing n with
  | nil => exact ⟨Nat.add_comm _ _, rfl⟩
  | cons mark rest ih =>
    cases mark with
    | true =>
      obtain ⟨later, ends⟩ := ih (n + 1)
      rw [hits_succ positive less] at later
      have next : (n % size + 1) % size = (n + 1) % size := Nat.mod_add_mod n size 1
      refine ⟨?_, ?_⟩
      · rw [streaksFrom, ← later, counted, next]
        simp only
        omega
      · rw [lastFrom, ← ends, counted, next]
    | false =>
      obtain ⟨later, ends⟩ := ih 0
      rw [hits_zero positive less, Nat.add_zero, Nat.zero_mod] at later
      rw [Nat.zero_mod] at ends
      refine ⟨?_, ends⟩
      rw [streaksFrom, allHits, ← later, counted]
      exact Nat.add_comm _ _

end

end Streaks
