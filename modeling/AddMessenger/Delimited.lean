import Mathlib.Data.List.Basic

/-!
# Texts that show where they end

A printed value can be told from the text that follows it, if what follows is of a known kind.
Then values written one after the other are determined by the whole.
-/

namespace Delimited

universe u v w

variable {σ : Type u} {α : Type v} {β : Type w}

/-- In front of texts of a kind, the text of `x` is that of no other value and ends where it
ends. -/
def DelimitsAt (Next : List σ → Prop) (print : α → List σ) (x : α) : Prop :=
  ∀ y a b, Next a → Next b → print x ++ a = print y ++ b → x = y ∧ a = b

def Delimits (Next : List σ → Prop) (print : α → List σ) : Prop := ∀ x, DelimitsAt Next print x

/-- What may follow is any text. -/
def Anything : List σ → Prop := fun _ => True

/-- What follows begins with one of some characters. -/
def StartsWith (stop : σ → Prop) (text : List σ) : Prop := ∃ c rest, text = c :: rest ∧ stop c

theorem startsWith_cons {stop : σ → Prop} {c : σ} {rest : List σ} :
    StartsWith stop (c :: rest) ↔ stop c := by
  constructor
  · rintro ⟨d, more, same, stops⟩
    cases same
    exact stops
  · intro stops
    exact ⟨c, rest, rfl, stops⟩

theorem Delimits.injective {Next : List σ → Prop} {print : α → List σ}
    (delimits : Delimits Next print) {a : List σ} (next : Next a) : Function.Injective print := by
  intro x y same
  exact (delimits x y a a next next (by rw [same])).1

/-- Two texts without the characters that may follow. -/
theorem append_inj_of_free {stop : σ → Prop} {s t a b : List σ} (freeS : ∀ c ∈ s, ¬ stop c)
    (freeT : ∀ c ∈ t, ¬ stop c) (startA : StartsWith stop a) (startB : StartsWith stop b)
    (same : s ++ a = t ++ b) : s = t ∧ a = b := by
  induction s generalizing t with
  | nil =>
    cases t with
    | nil => exact ⟨rfl, same⟩
    | cons c t =>
      rw [List.nil_append, List.cons_append] at same
      rw [same, startsWith_cons] at startA
      exact absurd startA (freeT c List.mem_cons_self)
  | cons c s ih =>
    cases t with
    | nil =>
      rw [List.nil_append, List.cons_append] at same
      rw [← same, startsWith_cons] at startB
      exact absurd startB (freeS c List.mem_cons_self)
    | cons d t =>
      obtain ⟨rfl, rest⟩ := List.cons.inj same
      obtain ⟨rfl, after⟩ := ih (fun x member => freeS x (List.mem_cons_of_mem c member))
        (fun x member => freeT x (List.mem_cons_of_mem c member)) rest
      exact ⟨rfl, after⟩

theorem DelimitsAt.cons {Next : List σ → Prop} {print : α → List σ} {x : α}
    (delimits : DelimitsAt Next print x) (c : σ) : DelimitsAt Next (fun x => c :: print x) x :=
  fun y a b nextA nextB same => delimits y a b nextA nextB (List.cons.inj same).2

/-- The values one after the other, and a mark of the end. -/
def closed (print : α → List σ) (close : σ) (xs : List α) : List σ :=
  xs.flatMap print ++ [close]

/-- The values with separators between them, and a mark of the end. -/
def separated (print : α → List σ) (sep close : σ) : List α → List σ
  | [] => [close]
  | x :: xs => print x ++ closed (fun x => sep :: print x) close xs

theorem closed_delimits {Next : List σ → Prop} {print : α → List σ} {close : σ} {xs : List α}
    (each : ∀ x ∈ xs, DelimitsAt Next print x)
    (apart : ∀ x a b, print x ++ a ≠ close :: b) (closes : ∀ a, Next (close :: a))
    (goesOn : ∀ x a, Next (print x ++ a)) : DelimitsAt Anything (closed print close) xs := by
  have next : ∀ (ys : List α) a, Next (ys.flatMap print ++ close :: a) := by
    intro ys a
    cases ys with
    | nil => exact closes a
    | cons y ys =>
      rw [List.flatMap_cons, List.append_assoc]
      exact goesOn y _
  intro ys a b _ _ same
  simp only [closed, List.append_assoc, List.singleton_append] at same
  induction xs generalizing ys with
  | nil =>
    cases ys with
    | nil => exact ⟨rfl, (List.cons.inj same).2⟩
    | cons y ys =>
      rw [List.flatMap_cons, List.append_assoc] at same
      exact absurd same.symm (apart y _ _)
  | cons x xs ih =>
    cases ys with
    | nil =>
      rw [List.flatMap_cons, List.append_assoc] at same
      exact absurd same (apart x _ _)
    | cons y ys =>
      rw [List.flatMap_cons, List.flatMap_cons, List.append_assoc, List.append_assoc] at same
      obtain ⟨rfl, rest⟩ := each x List.mem_cons_self y _ _ (next xs a) (next ys b) same
      obtain ⟨rfl, after⟩ := ih (fun z member => each z (List.mem_cons_of_mem x member)) ys rest
      exact ⟨rfl, after⟩

theorem separated_delimits {stop : σ → Prop} {print : α → List σ} {sep close : σ} {xs : List α}
    (each : ∀ x ∈ xs, DelimitsAt (StartsWith stop) print x)
    (apart : ∀ x a b, print x ++ a ≠ close :: b) (stopSep : stop sep) (stopClose : stop close)
    (differ : sep ≠ close) : DelimitsAt Anything (separated print sep close) xs := by
  have tail : ∀ ys : List α, (∀ y ∈ ys, y ∈ xs) →
      DelimitsAt Anything (closed (fun x => sep :: print x) close) ys := by
    intro ys inside
    refine closed_delimits (fun y member => (each y (inside y member)).cons sep) ?_
      (fun _ => startsWith_cons.mpr stopClose) (fun _ _ => startsWith_cons.mpr stopSep)
    intro x a b same
    exact differ (List.cons.inj same).1
  have starts : ∀ ys a, StartsWith stop (closed (fun x => sep :: print x) close ys ++ a) := by
    intro ys a
    cases ys with
    | nil => exact startsWith_cons.mpr stopClose
    | cons y ys => exact startsWith_cons.mpr stopSep
  intro ys a b _ _ same
  match xs, ys with
  | [], [] => exact ⟨rfl, (List.cons.inj same).2⟩
  | [], y :: ys =>
    rw [separated, separated, List.append_assoc] at same
    exact absurd same.symm (apart y _ _)
  | x :: xs, [] =>
    rw [separated, separated, List.append_assoc] at same
    exact absurd same (apart x _ _)
  | x :: xs, y :: ys =>
    rw [separated, separated, List.append_assoc, List.append_assoc] at same
    obtain ⟨rfl, rest⟩ := each x List.mem_cons_self y _ _ (starts xs a) (starts ys b) same
    obtain ⟨rfl, after⟩ := tail xs (fun y member => List.mem_cons_of_mem x member) ys a b
      trivial trivial rest
    exact ⟨rfl, after⟩

end Delimited
