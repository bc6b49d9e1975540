import Mathlib.Data.List.Basic

/-!
# Calls that may panic

A call returns a value, returns an error, or panics. A slice or an index outside a
sequence panics, and so does taking the value out of an error. A chain of calls stops at
the first one that does not return a value.
-/

namespace Outcomes

universe u v

inductive Outcome (ε : Type u) (α : Type v) where
  | ok (value : α)
  | error (e : ε)
  | panicked
  deriving DecidableEq, Repr

/-- A sequence of fixed length. -/
abbrev Sized (α : Type v) (n : Nat) := {items : List α // items.length = n}

namespace Outcome

variable {ε : Type u} {α β : Type v}

protected def bind (x : Outcome ε α) (f : α → Outcome ε β) : Outcome ε β :=
  match x with
  | ok value => f value
  | error e => error e
  | panicked => panicked

instance : Monad (Outcome ε) where
  pure := ok
  bind := Outcome.bind

@[simp] theorem pure_eq (value : α) : (pure value : Outcome ε α) = ok value := rfl

@[simp] theorem ok_bind (value : α) (f : α → Outcome ε β) : ok value >>= f = f value := rfl

@[simp] theorem error_bind (e : ε) (f : α → Outcome ε β) : error e >>= f = error e := rfl

@[simp] theorem panicked_bind (f : α → Outcome ε β) : panicked >>= f = panicked := rfl

/-- A chain returns a value only if every link does. -/
theorem bind_eq_ok {x : Outcome ε α} {f : α → Outcome ε β} {b : β} :
    x >>= f = ok b ↔ ∃ value, x = ok value ∧ f value = ok b := by
  cases x <;> simp

/-- A chain does not panic if no link does. -/
theorem bind_ne_panicked {x : Outcome ε α} {f : α → Outcome ε β} (first : x ≠ panicked)
    (later : ∀ value, x = ok value → f value ≠ panicked) : x >>= f ≠ panicked := by
  cases x with
  | ok value => exact later value rfl
  | error e => simp
  | panicked => exact absurd rfl first

/-- `unwrap`: an error panics. -/
def unwrap {δ : Type*} : Outcome δ α → Outcome ε α
  | ok value => ok value
  | _ => panicked

end Outcome

open Outcome

variable {ε : Type u} {α : Type v}

/-- An early return. -/
def errorIf (bad : Prop) [Decidable bad] (e : ε) : Outcome ε PUnit :=
  if bad then error e else ok ⟨⟩

def okOr (e : ε) : Option α → Outcome ε α
  | some value => ok value
  | none => error e

def unwrapOption : Option α → Outcome ε α
  | some value => ok value
  | none => panicked

/-- `items[i]` -/
def index (items : List α) (i : Nat) : Outcome ε α := unwrapOption items[i]?

/-- `items[lo..hi]` -/
def slice (items : List α) (lo hi : Nat) : Outcome ε (List α) :=
  if lo ≤ hi ∧ hi ≤ items.length then ok ((items.drop lo).take (hi - lo)) else panicked

/-- A sequence as one of fixed length. -/
def tryInto (n : Nat) (items : List α) : Option (Sized α n) :=
  if sized : items.length = n then some ⟨items, sized⟩ else none

/-- What is in a destination of `n` elements after `copy_from_slice`. -/
def copyFromSlice (n : Nat) (items : List α) : Outcome ε (Sized α n) :=
  unwrapOption (tryInto n items)

theorem errorIf_ne_panicked {bad : Prop} [Decidable bad] {e : ε} :
    errorIf bad e ≠ panicked := by
  unfold errorIf
  split <;> simp

theorem errorIf_eq_ok {bad : Prop} [Decidable bad] {e : ε} {done : PUnit} :
    errorIf bad e = ok done ↔ ¬ bad := by
  unfold errorIf
  split <;> simp_all

theorem errorIf_of_not {bad : Prop} [Decidable bad] (good : ¬ bad) (e : ε) :
    errorIf bad e = ok ⟨⟩ := if_neg good

theorem okOr_ne_panicked {e : ε} {x : Option α} : okOr e x ≠ panicked := by
  cases x <;> simp [okOr]

@[simp] theorem okOr_some (e : ε) (value : α) : okOr e (some value) = ok value := rfl

theorem okOr_eq_ok {e : ε} {x : Option α} {value : α} :
    okOr e x = ok value ↔ x = some value := by
  cases x <;> simp [okOr]

theorem index_eq_ok {items : List α} {i : Nat} {value : α} :
    (index items i : Outcome ε α) = ok value ↔ items[i]? = some value := by
  unfold index
  cases items[i]? <;> simp [unwrapOption]

theorem index_ne_panicked {items : List α} {i : Nat} (inside : i < items.length) :
    (index items i : Outcome ε α) ≠ panicked := by
  rw [index, List.getElem?_eq_getElem inside]
  simp [unwrapOption]

/-- The part between two others, at its own place. -/
theorem slice_of_append {items front part back : List α} {lo hi : Nat}
    (split : items = front ++ (part ++ back)) (start : lo = front.length)
    (stop : hi = lo + part.length) : (slice items lo hi : Outcome ε (List α)) = ok part := by
  have bounds : lo ≤ hi ∧ hi ≤ items.length := by
    simp only [split, List.length_append]
    omega
  rw [slice, if_pos bounds, split, List.drop_left' start.symm, List.take_left' (by omega)]

/-- What a reader that has come to `offset` has still before it. -/
def Remains (items : List α) (offset : Nat) (rest : List α) : Prop :=
  ∃ front, items = front ++ rest ∧ offset = front.length

theorem remains_all (items : List α) : Remains items 0 items := ⟨[], rfl, rfl⟩

theorem Remains.length {items rest : List α} {offset : Nat} (ahead : Remains items offset rest) :
    items.length = offset + rest.length := by
  obtain ⟨front, rfl, rfl⟩ := ahead
  exact List.length_append

/-- The next `n` elements are read. -/
theorem Remains.slice {items part back : List α} {offset n : Nat}
    (ahead : Remains items offset (part ++ back)) (sized : part.length = n) :
    (slice items offset (offset + n) : Outcome ε (List α)) = ok part := by
  obtain ⟨front, split, start⟩ := ahead
  exact slice_of_append split start (by rw [sized])

theorem Remains.next {items part back : List α} {offset n : Nat}
    (ahead : Remains items offset (part ++ back)) (sized : part.length = n) :
    Remains items (offset + n) back := by
  obtain ⟨front, rfl, rfl⟩ := ahead
  exact ⟨front ++ part, by rw [List.append_assoc], by rw [List.length_append, sized]⟩

theorem slice_left {front back : List α} {hi : Nat} (stop : hi = front.length) :
    (slice (front ++ back) 0 hi : Outcome ε (List α)) = ok front :=
  slice_of_append (show front ++ back = [] ++ (front ++ back) from rfl) rfl
    (stop.trans (Nat.zero_add _).symm)

theorem slice_right {front back : List α} {lo : Nat} (start : lo = front.length) :
    (slice (front ++ back) lo (front ++ back).length : Outcome ε (List α)) = ok back :=
  slice_of_append (show front ++ back = front ++ (back ++ []) by rw [List.append_nil]) start
    (by rw [List.length_append, start])

theorem slice_eq_ok {items part : List α} {lo hi : Nat} :
    (slice items lo hi : Outcome ε (List α)) = ok part ↔
      (lo ≤ hi ∧ hi ≤ items.length) ∧ (items.drop lo).take (hi - lo) = part := by
  by_cases bounds : lo ≤ hi ∧ hi ≤ items.length
  · rw [slice, if_pos bounds, ok.injEq, and_iff_right bounds]
  · rw [slice, if_neg bounds]
    exact iff_of_false (by simp) (fun both => bounds both.1)

theorem slice_ne_panicked {items : List α} {lo hi : Nat} (ordered : lo ≤ hi)
    (inside : hi ≤ items.length) : (slice items lo hi : Outcome ε (List α)) ≠ panicked := by
  rw [slice, if_pos ⟨ordered, inside⟩]
  simp

theorem exists_slice {items : List α} {lo hi : Nat} (ordered : lo ≤ hi)
    (inside : hi ≤ items.length) :
    ∃ part, (slice items lo hi : Outcome ε (List α)) = ok part ∧ part.length = hi - lo := by
  refine ⟨_, if_pos ⟨ordered, inside⟩, ?_⟩
  simp only [List.length_take, List.length_drop]
  omega

theorem slice_outside {items : List α} {lo hi : Nat} (outside : items.length < hi) :
    (slice items lo hi : Outcome ε (List α)) = panicked :=
  if_neg fun bounds => Nat.not_lt.mpr bounds.2 outside

theorem slice_length {items part : List α} {lo hi : Nat}
    (cut : (slice items lo hi : Outcome ε (List α)) = ok part) : part.length = hi - lo := by
  obtain ⟨⟨ordered, inside⟩, rfl⟩ := slice_eq_ok.mp cut
  simp only [List.length_take, List.length_drop]
  omega

@[simp] theorem tryInto_val {n : Nat} (items : Sized α n) : tryInto n items.val = some items := by
  rw [tryInto, dif_pos items.property]

theorem tryInto_of_length {n : Nat} {items : List α} (sized : items.length = n) :
    tryInto n items = some ⟨items, sized⟩ := dif_pos sized

@[simp] theorem copyFromSlice_val {n : Nat} (items : Sized α n) :
    (copyFromSlice n items.val : Outcome ε _) = ok items := by
  rw [copyFromSlice, tryInto_val]
  rfl

theorem copyFromSlice_of_length {n : Nat} {items : List α} (sized : items.length = n) :
    (copyFromSlice n items : Outcome ε _) = ok ⟨items, sized⟩ := by
  rw [copyFromSlice, tryInto_of_length sized]
  rfl

end Outcomes
