import Mathlib.Data.List.Basic
import Mathlib.Data.List.Induction
import Mathlib.Data.List.Infix

/-!
# Queues with a cap on their length and a share for each owner

A push of an owner that has used up its share takes out that owner's oldest
element. Otherwise a push to a full queue takes out the oldest element of all.
-/

namespace CappedQueue

universe u v

variable {Item : Type u} {Owner : Type v} [DecidableEq Owner]

section

variable (owner : Item → Owner) (size share : Nat)

def ownedBy (o : Owner) (x : Item) : Bool := owner x = o

/-- The elements left after making room for one more of `o`. -/
def makeRoom (q : List Item) (o : Owner) : List Item :=
  if share ≤ q.countP (ownedBy owner o) then q.eraseP (ownedBy owner o)
  else if size ≤ q.length then q.tail
  else q

def push (q : List Item) (x : Item) : List Item := makeRoom owner size share q (owner x) ++ [x]

/-- What the queue `q` keeps of everything that was pushed. -/
structure Fair (pushed q : List Item) : Prop where
  length : q.length ≤ size
  shares : ∀ o, q.countP (ownedBy owner o) ≤ share
  order : q.Sublist pushed
  recent : ∀ o, q.filter (ownedBy owner o) <:+ pushed.filter (ownedBy owner o)

end

variable {owner : Item → Owner} {size share : Nat}

omit [DecidableEq Owner] in
@[simp] theorem ownedBy_iff [DecidableEq Owner] {o : Owner} {x : Item} :
    ownedBy owner o x = true ↔ owner x = o :=
  decide_eq_true_iff

/-- What making room does: nothing, or one element goes. -/
theorem makeRoom_cases (owner : Item → Owner) (someSize : 0 < size) (someShare : 0 < share)
    (q : List Item) (o : Owner) :
    (share ≤ q.countP (ownedBy owner o) ∧ ∃ front gone back, q = front ++ gone :: back ∧
      owner gone = o ∧ (∀ x ∈ front, owner x ≠ o) ∧
      makeRoom owner size share q o = front ++ back) ∨
    (q.countP (ownedBy owner o) < share ∧ size ≤ q.length ∧ ∃ gone back, q = gone :: back ∧
      makeRoom owner size share q o = back) ∨
    (q.countP (ownedBy owner o) < share ∧ q.length < size ∧
      makeRoom owner size share q o = q) := by
  unfold makeRoom
  split
  · rename_i used
    obtain ⟨x, member, owned⟩ := List.countP_pos_iff.mp (Nat.lt_of_lt_of_le someShare used)
    obtain ⟨gone, front, back, before, same, split, left⟩ := List.exists_of_eraseP member owned
    refine .inl ⟨used, front, gone, back, split, ownedBy_iff.mp same, ?_, left⟩
    intro y early same
    exact before y early (ownedBy_iff.mpr same)
  · rename_i unused
    split
    · rename_i full
      cases q with
      | nil => exact absurd someSize (Nat.not_lt.mpr full)
      | cons gone back =>
        exact .inr (.inl ⟨Nat.lt_of_not_le unused, full, gone, back, rfl, rfl⟩)
    · rename_i room
      exact .inr (.inr ⟨Nat.lt_of_not_le unused, Nat.lt_of_not_le room, rfl⟩)

theorem makeRoom_sublist (owner : Item → Owner) (size share : Nat) (q : List Item) (o : Owner) :
    (makeRoom owner size share q o).Sublist q := by
  unfold makeRoom
  split
  · exact List.eraseP_sublist
  · split
    · exact List.tail_sublist q
    · exact List.Sublist.refl q

/-- Whoever's push it is, every owner keeps a suffix of what it had. -/
theorem makeRoom_recent (someSize : 0 < size) (someShare : 0 < share) (q : List Item)
    (o other : Owner) :
    (makeRoom owner size share q o).filter (ownedBy owner other) <:+
      q.filter (ownedBy owner other) := by
  rcases makeRoom_cases owner someSize someShare q o with
    ⟨-, front, gone, back, split, owned, before, left⟩ | ⟨-, -, gone, back, split, left⟩ |
      ⟨-, -, left⟩
  · rw [left, split, List.filter_append, List.filter_append]
    by_cases same : other = o
    · subst same
      have none : front.filter (ownedBy owner other) = [] := by
        refine List.filter_eq_nil_iff.mpr fun x early owned => ?_
        exact before x early (ownedBy_iff.mp owned)
      rw [none, List.filter_cons_of_pos (ownedBy_iff.mpr owned)]
      exact List.suffix_cons _ _
    · have foreign : ¬ ownedBy owner other gone = true := by
        intro ofOther
        exact same ((ownedBy_iff.mp ofOther).symm.trans owned)
      rw [List.filter_cons_of_neg foreign]
  · rw [left, split]
    by_cases ofOther : owner gone = other
    · rw [List.filter_cons_of_pos (ownedBy_iff.mpr ofOther)]
      exact List.suffix_cons _ _
    · rw [List.filter_cons_of_neg fun owned => ofOther (ownedBy_iff.mp owned)]
  · rw [left]

theorem fair_nil : Fair owner size share [] [] where
  length := Nat.zero_le _
  shares := fun _ => Nat.zero_le _
  order := List.Sublist.refl _
  recent := fun _ => List.suffix_rfl

theorem length_push_le (someSize : 0 < size) (someShare : 0 < share) {q : List Item}
    (short : q.length ≤ size) (x : Item) : (push owner size share q x).length ≤ size := by
  rw [push, List.length_append, List.length_singleton]
  rcases makeRoom_cases owner someSize someShare q (owner x) with
    ⟨-, front, gone, back, split, -, -, left⟩ | ⟨-, -, gone, back, split, left⟩ |
      ⟨-, room, left⟩
  · rw [split, List.length_append, List.length_cons] at short
    rw [left, List.length_append]
    omega
  · rw [split, List.length_cons] at short
    rw [left]
    exact short
  · rw [left]
    exact room

theorem countP_push_le (someSize : 0 < size) (someShare : 0 < share) {q : List Item}
    (shares : ∀ o, q.countP (ownedBy owner o) ≤ share) (x : Item) (o : Owner) :
    (push owner size share q x).countP (ownedBy owner o) ≤ share := by
  have fewer := (makeRoom_sublist owner size share q (owner x)).countP_le (p := ownedBy owner o)
  rw [push, List.countP_append, List.countP_singleton]
  by_cases own : owner x = o
  · rw [if_pos (ownedBy_iff.mpr own)]
    subst own
    rcases makeRoom_cases owner someSize someShare q (owner x) with
      ⟨-, front, gone, back, split, owned, -, left⟩ | ⟨below, -⟩ | ⟨below, -⟩
    · have here := shares (owner x)
      rw [split, List.countP_append, List.countP_cons_of_pos (ownedBy_iff.mpr owned)] at here
      rw [left, List.countP_append]
      omega
    · omega
    · omega
  · rw [if_neg fun owned => own (ownedBy_iff.mp owned)]
    exact Nat.le_trans fewer (shares o)

theorem fair_push (someSize : 0 < size) (someShare : 0 < share) {pushed q : List Item}
    (fair : Fair owner size share pushed q) (x : Item) :
    Fair owner size share (pushed ++ [x]) (push owner size share q x) where
  length := length_push_le someSize someShare fair.length x
  shares := countP_push_le someSize someShare fair.shares x
  order :=
    ((makeRoom_sublist owner size share q (owner x)).trans fair.order).append
      (List.Sublist.refl [x])
  recent := fun o => by
    obtain ⟨older, split⟩ := (makeRoom_recent someSize someShare q (owner x) o).trans
      (fair.recent o)
    rw [push, List.filter_append, List.filter_append, ← split]
    exact ⟨older, (List.append_assoc _ _ _).symm⟩

/-- A run of pushes from the empty queue. -/
theorem fair_foldl (someSize : 0 < size) (someShare : 0 < share) (xs : List Item) :
    Fair owner size share xs (xs.foldl (push owner size share) []) := by
  induction xs using List.reverseRecOn with
  | nil => exact fair_nil
  | append_singleton earlier x ih =>
    rw [List.foldl_append]
    exact fair_push someSize someShare ih x

end CappedQueue
