import Mathlib.Data.List.Basic

/-!
# Runs of a deterministic machine with outputs

A step consumes one action, answers with an output and moves to a new state.
A failing step also has an output and a successor, so a run never stops early:
what a rejected action does to the state is part of the machine.
-/

namespace Mealy

universe u v w

variable {State : Type u} {Action : Type v} {Out : Type w}

/-- The state after a finite run. -/
def final (step : State → Action → Out × State) (s : State) (acts : List Action) : State :=
  acts.foldl (fun s a => (step s a).2) s

/-- The outputs of a finite run, in order. -/
def outputs (step : State → Action → Out × State) : State → List Action → List Out
  | _, [] => []
  | s, a :: rest => (step s a).1 :: outputs step (step s a).2 rest

/-- Every action of the run satisfies `P` in the state in which it is taken. -/
def Along (step : State → Action → Out × State) (P : State → Action → Prop) :
    State → List Action → Prop
  | _, [] => True
  | s, a :: rest => P s a ∧ Along step P (step s a).2 rest

/-- The actions of a run whose outputs are not dropped. -/
def kept (step : State → Action → Out × State) (dropped : Out → Bool) :
    State → List Action → List Action
  | _, [] => []
  | s, a :: rest =>
    if dropped (step s a).1 then kept step dropped (step s a).2 rest
    else a :: kept step dropped (step s a).2 rest

variable {step : State → Action → Out × State}

@[simp] theorem final_nil (s : State) : final step s [] = s := rfl

@[simp] theorem final_cons (s : State) (a : Action) (rest : List Action) :
    final step s (a :: rest) = final step (step s a).2 rest := rfl

theorem final_append (s : State) (front back : List Action) :
    final step s (front ++ back) = final step (final step s front) back :=
  List.foldl_append

theorem kept_append (dropped : Out → Bool) (s : State) (front back : List Action) :
    kept step dropped s (front ++ back) =
      kept step dropped s front ++ kept step dropped (final step s front) back := by
  induction front generalizing s with
  | nil => rfl
  | cons a rest ih =>
    rw [List.cons_append, kept, kept, final_cons, ih]
    split
    · rfl
    · rfl

theorem along_append {P : State → Action → Prop} (s : State) (front back : List Action) :
    Along step P s (front ++ back) ↔
      Along step P s front ∧ Along step P (final step s front) back := by
  induction front generalizing s with
  | nil => simp [Along]
  | cons a rest ih => simp only [List.cons_append, Along, final_cons, ih, and_assoc]

/-- The condition at each place of the run. -/
theorem along_iff_split {P : State → Action → Prop} (s : State) (acts : List Action) :
    Along step P s acts ↔
      ∀ front a back, acts = front ++ a :: back → P (final step s front) a := by
  constructor
  · rintro along front a back rfl
    exact ((along_append s front (a :: back)).mp along).2.1
  · intro here
    induction acts generalizing s with
    | nil => trivial
    | cons a rest ih =>
      refine ⟨here [] a rest rfl, ih _ fun front b back split => ?_⟩
      exact here (a :: front) b back (by rw [split, List.cons_append])

/-- A condition that does not look at the state. -/
theorem along_mem {P : Action → Prop} (s : State) (acts : List Action) :
    Along step (fun _ a => P a) s acts ↔ ∀ a ∈ acts, P a := by
  induction acts generalizing s with
  | nil => simp [Along]
  | cons a rest ih => simp only [Along, ih, List.forall_mem_cons]

theorem along_and {P Q : State → Action → Prop} {s : State} {acts : List Action}
    (first : Along step P s acts) (second : Along step Q s acts) :
    Along step (fun s a => P s a ∧ Q s a) s acts := by
  induction acts generalizing s with
  | nil => trivial
  | cons a rest ih => exact ⟨⟨first.1, second.1⟩, ih first.2 second.2⟩

/-- The invariant rule: a step that meets `ok` keeps the invariant. -/
theorem final_invariant (Inv : State → Prop) {ok : State → Action → Prop}
    (preserved : ∀ s a, Inv s → ok s a → Inv (step s a).2) {s : State}
    {acts : List Action} (start : Inv s) (meets : Along step ok s acts) :
    Inv (final step s acts) := by
  induction acts generalizing s with
  | nil => exact start
  | cons a rest ih => exact ih (preserved s a start meets.1) meets.2

/-- What the invariant gives at one step holds at every step of the run. -/
theorem along_of_invariant (Inv : State → Prop) {ok P : State → Action → Prop}
    (preserved : ∀ s a, Inv s → ok s a → Inv (step s a).2)
    (here : ∀ s a, Inv s → ok s a → P s a) {s : State} {acts : List Action}
    (start : Inv s) (meets : Along step ok s acts) : Along step P s acts := by
  induction acts generalizing s with
  | nil => trivial
  | cons a rest ih =>
    exact ⟨here s a start meets.1, ih (preserved s a start meets.1) meets.2⟩

theorem along_mono {P Q : State → Action → Prop} (weaker : ∀ s a, P s a → Q s a) {s : State}
    {acts : List Action} (along : Along step P s acts) : Along step Q s acts :=
  along_of_invariant (fun _ => True) (fun _ _ _ _ => trivial) (fun s a _ => weaker s a) trivial
    along

/-- Conditions that agree on the actions of the run. -/
theorem along_congr {P Q : State → Action → Prop} {acts : List Action}
    (same : ∀ s, ∀ a ∈ acts, P s a ↔ Q s a) (s : State) :
    Along step P s acts ↔ Along step Q s acts := by
  induction acts generalizing s with
  | nil => exact Iff.rfl
  | cons a rest ih =>
    refine and_congr (same s a List.mem_cons_self) (ih (fun s b member => ?_) _)
    exact same s b (List.mem_cons_of_mem a member)

/-- Conditions that agree where an invariant holds, if the first of them keeps it. -/
theorem along_congr_of_kept (Inv : State → Prop) {P Q : State → Action → Prop}
    (same : ∀ s a, Inv s → (P s a ↔ Q s a)) (kept : ∀ s a, Inv s → P s a → Inv (step s a).2)
    {s : State} (start : Inv s) (acts : List Action) :
    Along step P s acts ↔ Along step Q s acts := by
  induction acts generalizing s with
  | nil => exact Iff.rfl
  | cons a rest ih =>
    constructor
    · rintro ⟨here, later⟩
      exact ⟨(same s a start).mp here, (ih (kept s a start here)).mp later⟩
    · rintro ⟨here, later⟩
      have first := (same s a start).mpr here
      exact ⟨first, (ih (kept s a start first)).mpr later⟩

/-- The unconditional invariant rule. -/
theorem final_preserved (Inv : State → Prop)
    (preserved : ∀ s a, Inv s → Inv (step s a).2) {s : State} (start : Inv s)
    (acts : List Action) : Inv (final step s acts) := by
  induction acts generalizing s with
  | nil => exact start
  | cons a rest ih => exact ih (preserved s a start)

/-- Two runs of the same actions stay related. -/
theorem final_related (R : State → State → Prop)
    (preserved : ∀ s t a, R s t → R (step s a).2 (step t a).2) {s t : State} (start : R s t)
    (acts : List Action) : R (final step s acts) (final step t acts) := by
  induction acts generalizing s t with
  | nil => exact start
  | cons a rest ih => exact ih (preserved s t a start)

/-- What is there at the end was there at the start and was spared by every
action, if each action keeps exactly what it spares. -/
theorem final_iff_along (Inv : State → Prop) {Held : State → Prop}
    {spares : State → Action → Prop} (preserved : ∀ s a, Inv s → Inv (step s a).2)
    (one : ∀ s a, Inv s → (Held (step s a).2 ↔ Held s ∧ spares s a)) {s : State}
    (start : Inv s) (acts : List Action) :
    Held (final step s acts) ↔ Held s ∧ Along step spares s acts := by
  induction acts generalizing s with
  | nil => exact (and_iff_left trivial).symm
  | cons a rest ih =>
    rw [final_cons, ih (preserved s a start), one s a start, and_assoc]
    rfl

/-- What a step keeps exactly when it is spared stays for a whole run exactly when
every action of the run spares it. -/
theorem forall_final_iff_along {Held : State → Prop} {spares : State → Action → Prop}
    (one : ∀ s a, Held s → (Held (step s a).2 ↔ spares s a)) {s : State} (start : Held s)
    (acts : List Action) :
    (∀ front back, acts = front ++ back → Held (final step s front)) ↔
      Along step spares s acts := by
  induction acts generalizing s with
  | nil =>
    refine iff_of_true ?_ trivial
    intro front back split
    obtain ⟨rfl, rfl⟩ := List.append_eq_nil_iff.mp split.symm
    exact start
  | cons a rest ih =>
    constructor
    · intro always
      have next : Held (step s a).2 := always [a] rest rfl
      refine ⟨(one s a start).mp next, (ih next).mp ?_⟩
      intro front back split
      exact always (a :: front) back (by rw [split, List.cons_append])
    · rintro ⟨here, later⟩ front back split
      cases front with
      | nil => exact start
      | cons first front =>
        obtain ⟨rfl, rfl⟩ := List.cons.inj split
        exact (ih ((one s a start).mpr here)).mpr later front back rfl

/-- Every output of a run is good exactly when every action meets what makes its own
output good. -/
theorem outputs_iff_along (Inv : State → Prop) {Good : Out → Prop} {ok : State → Action → Prop}
    (preserved : ∀ s a, Inv s → Inv (step s a).2)
    (one : ∀ s a, Inv s → (Good (step s a).1 ↔ ok s a)) {s : State} (start : Inv s)
    (acts : List Action) : (∀ o ∈ outputs step s acts, Good o) ↔ Along step ok s acts := by
  induction acts generalizing s with
  | nil => simp [outputs, Along]
  | cons a rest ih =>
    rw [outputs, List.forall_mem_cons, one s a start, ih (preserved s a start), Along]

/-- If the dropped actions leave the state alone, the run without them ends in
the same state and answers the same. -/
theorem run_kept {dropped : Out → Bool} {s : State} {acts : List Action}
    (unmoved : Along step (fun s a => dropped (step s a).1 = true → (step s a).2 = s) s acts) :
    final step s (kept step dropped s acts) = final step s acts ∧
      outputs step s (kept step dropped s acts) =
        (outputs step s acts).filter fun out => !dropped out := by
  induction acts generalizing s with
  | nil => exact ⟨rfl, rfl⟩
  | cons a rest ih =>
    obtain ⟨here, later⟩ := unmoved
    obtain ⟨sameFinal, sameOutputs⟩ := ih later
    cases drop : dropped (step s a).1 with
    | true =>
      rw [here drop] at sameFinal sameOutputs
      simp only [kept, drop, if_true, here drop, final_cons, outputs, List.filter_cons,
        Bool.not_true, Bool.false_eq_true, if_false]
      exact ⟨sameFinal, sameOutputs⟩
    | false =>
      simp only [kept, drop, Bool.false_eq_true, if_false, final_cons, outputs, List.filter_cons,
        Bool.not_false, if_true, sameFinal, sameOutputs, and_self]

end Mealy
