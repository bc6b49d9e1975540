import Mathlib.Data.List.Basic

/-!
# Reading from a stream

What a stream delivers, chunk by chunk. One read takes what has arrived, up to a size; an exact
read waits for as much as it asks for. An empty chunk is the end of the stream, and a read that
nothing arrives for never returns.
-/

namespace Streams

universe u

variable {α : Type u}

/-- What one read takes, and what is left to read. -/
def read (size : ℕ) : List (List α) → Option (List α × List (List α))
  | [] => none
  | chunk :: later =>
    some (chunk.take size, if chunk.length ≤ size then later else chunk.drop size :: later)

/-- How an exact read ends. -/
inductive ReadExact (α : Type u) where
  | full (items : List α) (left : List (List α))
  | closed
  | waiting

def ReadExact.cons (item : α) : ReadExact α → ReadExact α
  | .full items left => .full (item :: items) left
  | .closed => .closed
  | .waiting => .waiting

def readExact : ℕ → List (List α) → ReadExact α
  | 0, arrived => .full [] arrived
  | _ + 1, [] => .waiting
  | _ + 1, [] :: _ => .closed
  | n + 1, [item] :: later => (readExact n later).cons item
  | n + 1, (item :: next :: rest) :: later =>
    (readExact n ((next :: rest) :: later)).cons item

/-- A read takes the front of what is to come and leaves the rest. -/
theorem read_flatten {size : ℕ} {arrived left : List (List α)} {got : List α}
    (h : read size arrived = some (got, left)) : got ++ left.flatten = arrived.flatten := by
  cases arrived with
  | nil => cases h
  | cons chunk later =>
    simp only [read, Option.some.injEq, Prod.mk.injEq] at h
    obtain ⟨rfl, rfl⟩ := h
    by_cases whole : chunk.length ≤ size
    · simp [whole, List.take_of_length_le whole]
    · simp [whole, ← List.append_assoc]

/-- A read is in step with a message exactly when it takes as much as the message has. -/
theorem read_rest_iff {size : ℕ} {arrived left : List (List α)} {got message rest : List α}
    (h : read size arrived = some (got, left)) (stream : arrived.flatten = message ++ rest) :
    left.flatten = rest ↔ got.length = message.length := by
  have parts : got ++ left.flatten = message ++ rest := (read_flatten h).trans stream
  have total := congrArg List.length parts
  simp only [List.length_append] at total
  constructor
  · intro same
    rw [same] at total
    omega
  · intro same
    exact (List.append_inj parts same).2

/-- Chunks that make up what an exact read asks for are read whole. -/
theorem readExact_append (front later : List (List α)) (opened : [] ∉ front) :
    readExact front.flatten.length (front ++ later) = .full front.flatten later := by
  generalize size : front.flatten.length = n
  induction n generalizing front with
  | zero =>
    cases front with
    | nil => rfl
    | cons chunk rest =>
      cases chunk with
      | nil => simp at opened
      | cons item items => simp at size
  | succ n ih =>
    match front with
    | [] => simp at size
    | [] :: rest => simp at opened
    | [item] :: rest =>
      have left : rest.flatten.length = n := by simpa using size
      have still : [] ∉ rest := fun found => opened (List.mem_cons_of_mem _ found)
      simp [readExact, ih rest still left, ReadExact.cons]
    | (item :: next :: items) :: rest =>
      have left : ((next :: items) :: rest).flatten.length = n := by
        simp at size ⊢
        omega
      have still : [] ∉ (next :: items) :: rest := by simpa using opened
      have tail := ih _ still left
      simp only [List.cons_append] at tail
      simp [readExact, tail, ReadExact.cons]

end Streams
