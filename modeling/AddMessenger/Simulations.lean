import AddMessenger.Mealy

/-!
# One machine read off another

A relation between the states of two machines that every step keeps, with equal answers, makes
their runs answer alike. What is proved of the runs of the plainer one then holds of the other.
-/

namespace Mealy

universe u v w x

variable {State : Type u} {Spec : Type x} {Action : Type v} {Out : Type w}

/-- A step from related states answers alike and ends in related states. -/
def Simulates (step : State → Action → Out × State) (spec : Spec → Action → Out × Spec)
    (R : State → Spec → Prop) : Prop :=
  ∀ s t a, R s t → (step s a).1 = (spec t a).1 ∧ R (step s a).2 (spec t a).2

section

variable {step : State → Action → Out × State} {spec : Spec → Action → Out × Spec}
  {R : State → Spec → Prop}

theorem Simulates.final (simulates : Simulates step spec R) {s : State} {t : Spec}
    (start : R s t) (acts : List Action) :
    R (Mealy.final step s acts) (Mealy.final spec t acts) := by
  induction acts generalizing s t with
  | nil => exact start
  | cons a rest ih => exact ih (simulates s t a start).2

theorem Simulates.outputs (simulates : Simulates step spec R) {s : State} {t : Spec}
    (start : R s t) (acts : List Action) :
    Mealy.outputs step s acts = Mealy.outputs spec t acts := by
  induction acts generalizing s t with
  | nil => rfl
  | cons a rest ih =>
    obtain ⟨same, next⟩ := simulates s t a start
    rw [Mealy.outputs, Mealy.outputs, same, ih next]

/-- Conditions that agree on related states. -/
theorem Simulates.along (simulates : Simulates step spec R) {P : State → Action → Prop}
    {Q : Spec → Action → Prop} (same : ∀ s t a, R s t → (P s a ↔ Q t a)) {s : State} {t : Spec}
    (start : R s t) (acts : List Action) : Along step P s acts ↔ Along spec Q t acts := by
  induction acts generalizing s t with
  | nil => exact Iff.rfl
  | cons a rest ih => exact and_congr (same s t a start) (ih (simulates s t a start).2)

/-- A relation that a step keeps exactly when it is spared stays for a whole run exactly when every
action of the run spares it. -/
theorem forall_related_iff_along {spares : State → Action → Prop}
    (one : ∀ s t a, R s t → (R (step s a).2 (spec t a).2 ↔ spares s a)) {s : State} {t : Spec}
    (start : R s t) (acts : List Action) :
    (∀ front back, acts = front ++ back →
        R (Mealy.final step s front) (Mealy.final spec t front)) ↔ Along step spares s acts := by
  induction acts generalizing s t with
  | nil =>
    refine iff_of_true ?_ trivial
    intro front back split
    obtain ⟨rfl, rfl⟩ := List.append_eq_nil_iff.mp split.symm
    exact start
  | cons a rest ih =>
    constructor
    · intro always
      have next : R (step s a).2 (spec t a).2 := always [a] rest rfl
      refine ⟨(one s t a start).mp next, ?_⟩
      apply (ih next).mp
      intro front back split
      exact always (a :: front) back (by simp [split])
    · rintro ⟨here, later⟩ front back split
      have next := (one s t a start).mpr here
      cases front with
      | nil => exact start
      | cons first front =>
        obtain ⟨rfl, rfl⟩ := List.cons.inj split
        exact (ih next).mpr later front back rfl

/-- While the relation stays, the answers are the same. -/
theorem outputs_eq_of_along {spares : State → Action → Prop}
    (one : ∀ s t a, R s t → (R (step s a).2 (spec t a).2 ↔ spares s a))
    (same : ∀ s t a, R s t → (step s a).1 = (spec t a).1) {s : State} {t : Spec}
    (start : R s t) {acts : List Action} (along : Along step spares s acts) :
    Mealy.outputs step s acts = Mealy.outputs spec t acts := by
  induction acts generalizing s t with
  | nil => rfl
  | cons a rest ih =>
    obtain ⟨here, later⟩ := along
    rw [Mealy.outputs, Mealy.outputs, same s t a start, ih ((one s t a start).mpr here) later]

end

section

variable {step : State → Action → Out × State}

/-- Actions that no state tells apart give runs that are alike. -/
theorem run_eq_of_alike {Alike : Action → Action → Prop}
    (one : ∀ s a b, Alike a b → step s a = step s b) {acts acts' : List Action}
    (alike : List.Forall₂ Alike acts acts') (s : State) :
    outputs step s acts = outputs step s acts' ∧ final step s acts = final step s acts' := by
  induction alike generalizing s with
  | nil => exact ⟨rfl, rfl⟩
  | @cons a b rest rest' first _ ih =>
    obtain ⟨answers, ends⟩ := ih (step s b).2
    rw [outputs, outputs, final_cons, final_cons, one s a b first, answers]
    exact ⟨rfl, ends⟩

/-- What a step keeps exactly when it is spared, given something else that every step keeps with
it, stays for a whole run exactly when every action of the run spares it. -/
theorem forall_final_iff_along_of {Held Also : State → Prop} {spares : State → Action → Prop}
    (one : ∀ s a, Held s → Also s → (Held (step s a).2 ↔ spares s a))
    (also : ∀ s a, Held s → Also s → Held (step s a).2 → Also (step s a).2) {s : State}
    (start : Held s) (beside : Also s) (acts : List Action) :
    (∀ front back, acts = front ++ back → Held (final step s front)) ↔
      Along step spares s acts := by
  induction acts generalizing s with
  | nil =>
    refine iff_of_true ?_ trivial
    intro front back split
    obtain ⟨rfl, rfl⟩ := List.append_eq_nil_iff.mp split.symm
    exact start
  | cons a rest ih =>
    constructor
    · intro always
      have next : Held (step s a).2 := always [a] rest rfl
      refine ⟨(one s a start beside).mp next, ?_⟩
      apply (ih next (also s a start beside next)).mp
      intro front back split
      exact always (a :: front) back (by simp [split])
    · rintro ⟨here, later⟩ front back split
      have next := (one s a start beside).mpr here
      cases front with
      | nil => exact start
      | cons first front =>
        obtain ⟨rfl, rfl⟩ := List.cons.inj split
        exact (ih next (also s a start beside next)).mpr later front back rfl

end

end Mealy
