import Mathlib.Data.List.Basic

/-!
# Handlers of requests

A handler changes a state and answers, or stops early with an error. What it has done
to the state up to there stays done.
-/

namespace Handlers

universe u v w

variable {State : Type u} {Error : Type v} {Value Next : Type w}

def Handler (State : Type u) (Error : Type v) (Value : Type w) : Type (max u v w) :=
  State → Except Error Value × State

namespace Handler

def run (h : Handler State Error Value) (s : State) : Except Error Value × State := h s

instance : Monad (Handler State Error) where
  pure a := fun s => (.ok a, s)
  bind h f := fun s =>
    match h s with
    | (.ok a, t) => f a t
    | (.error e, t) => (.error e, t)

def fail (e : Error) : Handler State Error Value := fun s => (.error e, s)

/-- Stop unless the condition holds. -/
def require (condition : Bool) (e : Error) : Handler State Error PUnit.{w + 1} := fun s =>
  if condition then (.ok ⟨⟩, s) else (.error e, s)

/-- Read from the state. -/
def asks (f : State → Value) : Handler State Error Value := fun s => (.ok (f s), s)

def modify (f : State → State) : Handler State Error PUnit.{w + 1} := fun s => (.ok ⟨⟩, f s)

@[simp] theorem run_pure_iff {a b : Value} {s t : State} :
    run (pure a : Handler State Error Value) s = (.ok b, t) ↔ a = b ∧ s = t := by
  change (Except.ok a, s) = (Except.ok b, t) ↔ _
  simp

@[simp] theorem run_fail_iff {e : Error} {b : Value} {s t : State} :
    run (fail e : Handler State Error Value) s = (.ok b, t) ↔ False := by
  change (Except.error e, s) = (Except.ok b, t) ↔ _
  simp

@[simp] theorem run_require_iff {condition : Bool} {e : Error} {b : PUnit.{w + 1}} {s t : State} :
    run (require condition e : Handler State Error PUnit.{w + 1}) s = (.ok b, t) ↔
      condition = true ∧ s = t := by
  cases condition <;> simp [run, require]

@[simp] theorem run_asks_iff {f : State → Value} {b : Value} {s t : State} :
    run (asks f : Handler State Error Value) s = (.ok b, t) ↔ f s = b ∧ s = t := by
  simp [run, asks]

@[simp] theorem run_modify_iff {f : State → State} {b : PUnit.{w + 1}} {s t : State} :
    run (modify f : Handler State Error PUnit.{w + 1}) s = (.ok b, t) ↔ f s = t := by
  simp [run, modify]

@[simp] theorem run_require_state (condition : Bool) (e : Error) (s : State) :
    (run (require condition e : Handler State Error PUnit.{w + 1}) s).2 = s := by
  cases condition with
  | true => rfl
  | false => rfl

theorem run_bind_iff {h : Handler State Error Value} {f : Value → Handler State Error Next}
    {b : Next} {s t : State} :
    run (h >>= f) s = (.ok b, t) ↔
      ∃ a u, run h s = (.ok a, u) ∧ run (f a) u = (.ok b, t) := by
  change (match h s with
    | (.ok a, u) => f a u
    | (.error e, u) => (.error e, u)) = _ ↔ _
  cases ran : h s with
  | mk result u =>
    cases result with
    | ok a => simp [run, ran]
    | error e => simp [run, ran]

theorem run_bind_of_ok {h : Handler State Error Value} {f : Value → Handler State Error Next}
    {a : Value} {s u : State} (passed : run h s = (.ok a, u)) : run (h >>= f) s = run (f a) u := by
  change (match run h s with
    | (.ok a, u) => f a u
    | (.error e, u) => (.error e, u)) = _
  rw [passed]
  rfl

theorem run_bind_of_error {h : Handler State Error Value} {f : Value → Handler State Error Next}
    {e : Error} {s u : State} (failed : run h s = (.error e, u)) :
    run (h >>= f) s = (.error e, u) := by
  change (match run h s with
    | (.ok a, u) => f a u
    | (.error e, u) => (.error e, u)) = _
  rw [failed]

theorem run_asks_bind (f : State → Value) (g : Value → Handler State Error Next) (s : State) :
    run (asks f >>= g) s = run (g (f s)) s := rfl

theorem bind_assoc {Last : Type w} (h : Handler State Error Value)
    (f : Value → Handler State Error Next) (g : Next → Handler State Error Last) :
    h >>= f >>= g = h >>= fun a => f a >>= g := by
  funext s
  change (match (match h s with
      | (.ok a, t) => f a t
      | (.error e, t) => (.error e, t)) with
    | (.ok b, t) => g b t
    | (.error e, t) => (.error e, t)) = match h s with
      | (.ok a, t) => (f a >>= g) t
      | (.error e, t) => (.error e, t)
  cases h s with
  | mk result t =>
    cases result with
    | ok a => rfl
    | error e => rfl

/-- A failed run failed in the first part, or after it had succeeded. -/
theorem run_bind_error {h : Handler State Error Value} {f : Value → Handler State Error Next}
    {e : Error} {s t : State} (failed : run (h >>= f) s = (.error e, t)) :
    run h s = (.error e, t) ∨ ∃ a u, run h s = (.ok a, u) ∧ run (f a) u = (.error e, t) := by
  change (match h s with
    | (.ok a, u) => f a u
    | (.error e, u) => (.error e, u)) = _ at failed
  cases ran : h s with
  | mk result u =>
    rw [ran] at failed
    cases result with
    | ok a => exact Or.inr ⟨a, u, ran, failed⟩
    | error e' =>
      obtain ⟨rfl, rfl⟩ : e' = e ∧ u = t := by simpa using failed
      exact Or.inl ran

/-- However the run ends, the states are related. -/
def Keeps (R : State → State → Prop) (h : Handler State Error Value) : Prop :=
  ∀ s, R s (run h s).2

/-- If the run fails, the states are related. -/
def KeepsOnError (R : State → State → Prop) (h : Handler State Error Value) : Prop :=
  ∀ s e t, run h s = (.error e, t) → R s t

/-- A part of the state is as it was. -/
def Unchanged {Part : Type*} (part : State → Part) (s t : State) : Prop := part t = part s

theorem Unchanged.refl {Part : Type*} (part : State → Part) (s : State) : Unchanged part s s := rfl

theorem Unchanged.trans {Part : Type*} (part : State → Part) (s t u : State)
    (first : Unchanged part s t) (second : Unchanged part t u) : Unchanged part s u :=
  Eq.trans second first

section

variable {R : State → State → Prop}

/-- What a run that has been looked at keeps. -/
theorem Keeps.of_run {h : Handler State Error Value} (keeps : Keeps R h) {s t : State}
    {result : Except Error Value} (ran : run h s = (result, t)) : R s t := by
  have kept := keeps s
  rwa [ran] at kept

theorem Keeps.bind (trans : ∀ s t u, R s t → R t u → R s u) {h : Handler State Error Value}
    {f : Value → Handler State Error Next} (first : Keeps R h) (second : ∀ a, Keeps R (f a)) :
    Keeps R (h >>= f) := by
  intro s
  have related := first s
  change R s (match h s with
    | (.ok a, u) => f a u
    | (.error e, u) => (.error e, u)).2
  cases ran : h s with
  | mk result u =>
    simp only [run, ran] at related
    cases result with
    | ok a => exact trans s u _ related (second a u)
    | error e => exact related

/-- The rule for a relation that only matters if the run fails. -/
theorem KeepsOnError.bind (trans : ∀ s t u, R s t → R t u → R s u)
    {h : Handler State Error Value} {f : Value → Handler State Error Next} (first : Keeps R h)
    (second : ∀ a, KeepsOnError R (f a)) : KeepsOnError R (h >>= f) := by
  intro s e t failed
  rcases run_bind_error failed with early | ⟨a, u, passed, late⟩
  · have related := first s
    rwa [early] at related
  · have related := first s
    rw [passed] at related
    exact trans s u t related (second a u e t late)

theorem keepsOnError_asks (f : State → Value) :
    KeepsOnError R (asks f : Handler State Error Value) := by
  intro s e t failed
  cases failed

/-- What cannot fail before an answer cannot fail. -/
theorem keepsOnError_modify_pure {f : State → State} (a : Value) :
    KeepsOnError R (modify f >>= fun _ => pure a : Handler State Error Value) := by
  intro s e t failed
  cases failed

theorem keeps_pure (refl : ∀ s, R s s) (a : Value) :
    Keeps R (pure a : Handler State Error Value) :=
  fun s => refl s

theorem keeps_fail (refl : ∀ s, R s s) (e : Error) :
    Keeps R (fail e : Handler State Error Value) :=
  fun s => refl s

theorem keeps_require (refl : ∀ s, R s s) (condition : Bool) (e : Error) :
    Keeps R (require condition e : Handler State Error PUnit.{w + 1}) := by
  intro s
  rw [run_require_state]
  exact refl s

theorem keeps_asks (refl : ∀ s, R s s) (f : State → Value) :
    Keeps R (asks f : Handler State Error Value) :=
  fun s => refl s

end

/-- From related states the runs have one result and end in related states. -/
def Alike (R : State → State → Prop) (h : Handler State Error Value) : Prop :=
  ∀ s t, R s t → (run h t).1 = (run h s).1 ∧ R (run h s).2 (run h t).2

section

variable {R : State → State → Prop}

theorem Alike.bind {h : Handler State Error Value} {f : Value → Handler State Error Next}
    (first : Alike R h) (second : ∀ a, Alike R (f a)) : Alike R (h >>= f) := by
  intro s t related
  obtain ⟨same, after⟩ := first s t related
  rcases left : run h s with ⟨result, s'⟩
  rcases right : run h t with ⟨result', t'⟩
  rw [left, right] at same after
  obtain rfl : result' = result := same
  cases result' with
  | ok a =>
    rw [run_bind_of_ok left, run_bind_of_ok right]
    exact second a s' t' after
  | error e =>
    rw [run_bind_of_error left, run_bind_of_error right]
    exact ⟨rfl, after⟩

theorem alike_pure (a : Value) : Alike R (pure a : Handler State Error Value) :=
  fun _ _ related => ⟨rfl, related⟩

theorem alike_fail (e : Error) : Alike R (fail e : Handler State Error Value) :=
  fun _ _ related => ⟨rfl, related⟩

theorem alike_require (condition : Bool) (e : Error) :
    Alike R (require condition e : Handler State Error PUnit.{w + 1}) := by
  intro s t related
  cases condition with
  | true => exact ⟨rfl, related⟩
  | false => exact ⟨rfl, related⟩

end

end Handler

end Handlers
