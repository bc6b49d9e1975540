import Mathlib.Data.List.Basic
import Mathlib.Data.Nat.Find

/-!
# Taking turns

Chains in which a link begins its work when the one before it has settled.
-/

namespace Turns

variable {A : Type*} {settled begun : A → Prop} {links : List A}

/-- The link before this one, if there is one, has settled. -/
def ItsTurn (settled : A → Prop) (links : List A) (i : Nat) : Prop :=
  ∀ p a, i = p + 1 → links[p]? = some a → settled a

/-- No link has begun before its turn. -/
def InTurn (settled begun : A → Prop) (links : List A) : Prop :=
  ∀ (i : Nat) (a : A), links[i]? = some a → begun a → ItsTurn settled links i

theorem inTurn_nil : InTurn settled begun [] := by
  intro i a here
  cases here

/-- What has begun comes after what has settled. -/
theorem InTurn.settled_of_lt (turns : InTurn settled begun links)
    (settles : ∀ a, settled a → begun a) {i j : Nat} (before : i < j) {a b : A}
    (at_i : links[i]? = some a) (at_j : links[j]? = some b) (started : begun b) : settled a := by
  obtain ⟨k, rfl⟩ := Nat.exists_eq_add_of_lt before
  induction k generalizing b with
  | zero => exact turns _ b at_j started i a rfl at_i
  | succ k ih =>
    have inside : i + k + 1 < links.length := by
      have last := (List.getElem?_eq_some_iff.mp at_j).1
      omega
    have at_k := List.getElem?_eq_getElem inside
    have earlier := turns _ b at_j started (i + k + 1) _ rfl at_k
    exact ih (settles _ earlier) (by omega) at_k

theorem InTurn.concat (turns : InTurn settled begun links) {b : A} (fresh : ¬ begun b) :
    InTurn settled begun (links ++ [b]) := by
  intro i a here started p c next at_p
  have size := (List.getElem?_eq_some_iff.mp here).1
  rw [List.length_append, List.length_singleton] at size
  rcases Nat.lt_succ_iff_lt_or_eq.mp size with old | last
  · rw [List.getElem?_append_left old] at here
    rw [List.getElem?_append_left (by omega)] at at_p
    exact turns i a here started p c next at_p
  · rw [last, List.getElem?_concat_length] at here
    exact absurd (Option.some.inj here ▸ started) fresh

/-- A link may go on if it has begun or it is its turn; what has settled stays so. -/
theorem InTurn.set (turns : InTurn settled begun links) {i : Nat} {a a' : A}
    (at_i : links[i]? = some a) (stays : settled a → settled a')
    (may : begun a' → begun a ∨ ItsTurn settled links i) :
    InTurn settled begun (links.set i a') := by
  have inside := (List.getElem?_eq_some_iff.mp at_i).1
  have kept : ∀ j, ItsTurn settled links j → ItsTurn settled (links.set i a') j := by
    intro j turn p c next at_p
    by_cases same : i = p
    · subst same
      rw [List.getElem?_set_self inside] at at_p
      cases at_p
      exact stays (turn i a next at_i)
    · rw [List.getElem?_set_ne same] at at_p
      exact turn p c next at_p
  intro j b at_j started
  by_cases same : i = j
  · subst same
    rw [List.getElem?_set_self inside] at at_j
    cases at_j
    rcases may started with early | turn
    · exact kept i (turns i a at_i early)
    · exact kept i turn
  · rw [List.getElem?_set_ne same] at at_j
    exact kept j (turns j b at_j started)

/-- As long as not all have settled, it is the turn of one that has not. -/
theorem exists_its_turn {a : A} (member : a ∈ links) (unsettled : ¬ settled a) :
    ∃ i b, links[i]? = some b ∧ ¬ settled b ∧ ItsTurn settled links i := by
  classical
  obtain ⟨i, at_i⟩ := List.mem_iff_getElem?.mp member
  have some_one : ∃ i b, links[i]? = some b ∧ ¬ settled b := ⟨i, a, at_i, unsettled⟩
  obtain ⟨b, at_b, open_b⟩ := Nat.find_spec some_one
  refine ⟨Nat.find some_one, b, at_b, open_b, fun p c next at_p => ?_⟩
  by_contra earlier
  exact Nat.find_min some_one (by omega) ⟨c, at_p, earlier⟩

/-- A property of all links after one of them is replaced. -/
theorem forall_mem_set_iff {P : A → Prop} {Q : Prop} {i : Nat} {a a' : A}
    (at_i : links[i]? = some a) (one : P a' ↔ P a ∧ Q) :
    (∀ x ∈ links.set i a', P x) ↔ (∀ x ∈ links, P x) ∧ Q := by
  induction links generalizing i with
  | nil => cases at_i
  | cons x rest ih =>
    cases i with
    | zero =>
      cases at_i
      rw [List.set_cons_zero, List.forall_mem_cons, List.forall_mem_cons, one]
      exact and_right_comm
    | succ i =>
      rw [List.set_cons_succ, List.forall_mem_cons, List.forall_mem_cons, ih at_i, and_assoc]

end Turns
