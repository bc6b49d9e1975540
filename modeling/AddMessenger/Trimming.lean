import Mathlib.Data.List.DropRight

/-!
# Lists without characters at their ends, and with runs made one

A list is trimmed when its first and its last element are not of a kind; in a collapsed list each
run of a kind stands as one mark. Both leave a list alone that is already so.
-/

namespace Trimming

universe u

variable {α : Type u}

def trim (p : α → Bool) (l : List α) : List α := (l.dropWhile p).rdropWhile p

/-- Each run of `p` as one `mark`; `inRun` tells that the run has begun. -/
def collapse (p : α → Bool) (mark : α) : Bool → List α → List α
  | _, [] => []
  | inRun, x :: rest =>
    if p x then
      if inRun then collapse p mark true rest else mark :: collapse p mark true rest
    else x :: collapse p mark false rest

variable {p : α → Bool} {mark : α}

theorem dropWhile_of_prefix {l short : List α} (isPrefix : short <+: l)
    (fixed : l.dropWhile p = l) : short.dropWhile p = short := by
  cases short with
  | nil => rfl
  | cons x rest =>
    obtain ⟨more, rfl⟩ := isPrefix
    cases first : p x with
    | false => exact List.dropWhile_cons_of_neg (by simp [first])
    | true =>
      rw [List.cons_append, List.dropWhile_cons_of_pos first] at fixed
      have lengths := congrArg List.length fixed
      have shorter := (List.dropWhile_suffix p (l := rest ++ more)).length_le
      rw [List.length_cons] at lengths
      omega

theorem trim_idempotent (p : α → Bool) (l : List α) : trim p (trim p l) = trim p l := by
  have front : (trim p l).dropWhile p = trim p l :=
    dropWhile_of_prefix (List.rdropWhile_prefix p _) (List.dropWhile_idempotent p l)
  calc trim p (trim p l) = (trim p l).rdropWhile p := congrArg (List.rdropWhile p) front
    _ = trim p l := List.rdropWhile_idempotent p _

theorem trim_subset (p : α → Bool) (l : List α) : trim p l ⊆ l :=
  fun _ member => (List.dropWhile_suffix p).subset ((List.rdropWhile_prefix p _).subset member)

theorem trim_of_free {l : List α} (free : ∀ x ∈ l, p x = false) : trim p l = l := by
  have front : l.dropWhile p = l := by
    cases l with
    | nil => rfl
    | cons x rest => exact List.dropWhile_cons_of_neg (by simp [free x List.mem_cons_self])
  have back : l.rdropWhile p = l := by
    rw [List.rdropWhile_eq_self_iff]
    intro some_ last
    rw [free _ (List.getLast_mem some_)] at last
    cases last
  rw [trim, front, back]

theorem mem_collapse {inRun : Bool} {l : List α} {x : α} (member : x ∈ collapse p mark inRun l) :
    x = mark ∨ x ∈ l ∧ p x = false := by
  induction l generalizing inRun with
  | nil => cases member
  | cons y rest ih =>
    have later : ∀ {inRun}, x ∈ collapse p mark inRun rest →
        x = mark ∨ x ∈ y :: rest ∧ p x = false := by
      intro inRun inRest
      exact (ih inRest).imp_right fun both => ⟨List.mem_cons_of_mem y both.1, both.2⟩
    rw [collapse] at member
    split at member
    · split at member
      · exact later member
      · rcases List.mem_cons.mp member with here | inRest
        · exact .inl here
        · exact later inRest
    · next outside =>
      rcases List.mem_cons.mp member with rfl | inRest
      · exact .inr ⟨List.mem_cons_self, by simpa using outside⟩
      · exact later inRest

theorem collapse_of_free {inRun : Bool} {l : List α} (free : ∀ x ∈ l, p x = false) :
    collapse p mark inRun l = l := by
  induction l generalizing inRun with
  | nil => rfl
  | cons x rest ih =>
    obtain ⟨here, later⟩ := List.forall_mem_cons.mp free
    rw [collapse, here, if_neg Bool.false_ne_true, ih later]

end Trimming
