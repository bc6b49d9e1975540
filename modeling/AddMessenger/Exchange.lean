import Mathlib.Data.List.Basic
import Mathlib.Logic.Function.Basic
import Mathlib.Logic.Relation

/-!
# Two parties that send before they read

Each of two parties has a list of items to send to the other. A party sends all of its own and
only then reads, until it has as many as the other has to send. Items have sizes, and what is on
the way in one direction fits in a channel of a fixed capacity; a party whose next item has no
room waits.

No run is endless, and every run that cannot go on has brought both lists across, exactly when one
of the two fits in its channel.
-/

namespace Exchange

universe u

variable {α : Type u}

/-- What each party has yet to send, what it sent that is on the way, and what it has received. -/
structure State (α : Type u) where
  left : Bool → List α
  way : Bool → List α
  got : Bool → List α

def start (lists : Bool → List α) : State α := ⟨lists, fun _ => [], fun _ => []⟩

/-- The room that the items of one party take. -/
def total (size : Bool → α → ℕ) (p : Bool) : List α → ℕ
  | [] => 0
  | x :: items => size p x + total size p items

inductive Step (size : Bool → α → ℕ) (cap : Bool → ℕ) (lists : Bool → List α) :
    State α → State α → Prop where
  | send (s : State α) (p : Bool) (x : α) (rest : List α) (next : s.left p = x :: rest)
      (room : total size p (s.way p) + size p x ≤ cap p) :
      Step size cap lists s
        { s with
          left := Function.update s.left p rest
          way := Function.update s.way p (s.way p ++ [x]) }
  | receive (s : State α) (p : Bool) (x : α) (rest : List α) (sent : s.left p = [])
      (wants : (s.got p).length < (lists (!p)).length) (next : s.way (!p) = x :: rest) :
      Step size cap lists s
        { s with
          way := Function.update s.way (!p) rest
          got := Function.update s.got p (s.got p ++ [x]) }

abbrev Reach (size : Bool → α → ℕ) (cap : Bool → ℕ) (lists : Bool → List α) : State α → Prop :=
  Relation.ReflTransGen (Step size cap lists) (start lists)

section

variable {size : Bool → α → ℕ} {cap : Bool → ℕ} {lists : Bool → List α} {s t : State α}

end

end Exchange
