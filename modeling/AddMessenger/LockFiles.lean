import AddMessenger.Simulations
import Mathlib.Logic.Function.Basic

/-!
# Lock files

Before it goes on, a process looks whether a file names a process that is alive, and is refused if
so; else it writes its own name into the file, and it removes the file at its end. The look, the
write and the removal are steps of their own, and a process may die between any two of them.
-/

namespace LockFiles

universe u

variable {Pid : Type u} [DecidableEq Pid]

/-- What a process is doing; a bystander does not use the lock. -/
inductive Phase where
  | absent
  | bystander
  | checked
  | holding
  deriving DecidableEq

structure Lock (Pid : Type u) where
  file : Option Pid
  phase : Pid → Phase

inductive Event (Pid : Type u) where
  | bystander (pid : Pid)
  | check (pid : Pid)
  | write (pid : Pid)
  | leave (pid : Pid)
  | die (pid : Pid)

def Lock.set (l : Lock Pid) (pid : Pid) (phase : Phase) : Lock Pid :=
  { l with phase := Function.update l.phase pid phase }

/-- Whether a process may find its own name in the file, and whether its look removes a file
that does not stop it. -/
structure Policy where
  admitsOwn : Bool
  clears : Bool

variable (policy : Policy)

def refuses (l : Lock Pid) (pid : Pid) : Bool :=
  l.file.any fun owner => if owner = pid then !policy.admitsOwn else l.phase owner != .absent

def looked (l : Lock Pid) (pid : Pid) : Option Pid :=
  if policy.clears ∧ l.file ≠ some pid then none else l.file

/-- The answer tells whether a process was refused. -/
def step (l : Lock Pid) : Event Pid → Bool × Lock Pid
  | .bystander pid => (false, if l.phase pid = .absent then l.set pid .bystander else l)
  | .check pid =>
    if l.phase pid = .absent then
      if refuses policy l pid then (true, l)
      else (false, { l.set pid .checked with file := looked policy l pid })
    else (false, l)
  | .write pid =>
    (false, if l.phase pid = .checked then { l.set pid .holding with file := some pid } else l)
  | .leave pid =>
    (false, if l.phase pid = .holding then { l.set pid .absent with file := none } else l)
  | .die pid => (false, l.set pid .absent)

/-- The process is past its look. -/
def Phase.inside (phase : Phase) : Prop := phase = .checked ∨ phase = .holding

def Exclusive (l : Lock Pid) : Prop :=
  ∀ p q, (l.phase p).inside → (l.phase q).inside → p = q

/-- A process that has written is the one in the file. -/
def Named (l : Lock Pid) : Prop := ∀ p, l.phase p = .holding → l.file = some p

/-- Nobody looks while another stands between its look and its write, unless it is refused. -/
def Spares (l : Lock Pid) : Event Pid → Prop
  | .check pid =>
    l.phase pid = .absent → refuses policy l pid = true ∨ ∀ q, l.phase q ≠ .checked
  | _ => True

section

variable {policy} {l : Lock Pid}

theorem set_self (pid : Pid) (phase : Phase) : (l.set pid phase).phase pid = phase :=
  Function.update_self ..

theorem set_of_ne {p pid : Pid} (phase : Phase) (other : p ≠ pid) :
    (l.set pid phase).phase p = l.phase p :=
  Function.update_of_ne other ..

/-- Who is inside after one process has moved. -/
theorem inside_set {p pid : Pid} {phase : Phase} (inside : ((l.set pid phase).phase p).inside) :
    (p = pid ∧ phase.inside) ∨ (p ≠ pid ∧ (l.phase p).inside) := by
  by_cases own : p = pid
  · subst own
    exact Or.inl ⟨rfl, by simpa only [set_self] using inside⟩
  · exact Or.inr ⟨own, by simpa only [set_of_ne _ own] using inside⟩

theorem Exclusive.set {pid : Pid} {phase : Phase} (exclusive : Exclusive l)
    (enters : phase.inside → ∀ q, (l.phase q).inside → q = pid) : Exclusive (l.set pid phase) := by
  intro p q insideP insideQ
  rcases inside_set insideP with ⟨ownP, here⟩ | ⟨-, thereP⟩
  · rcases inside_set insideQ with ⟨ownQ, -⟩ | ⟨-, thereQ⟩
    · exact ownP.trans ownQ.symm
    · exact ownP.trans (enters here q thereQ).symm
  · rcases inside_set insideQ with ⟨ownQ, here⟩ | ⟨-, thereQ⟩
    · exact (enters here p thereP).trans ownQ.symm
    · exact exclusive p q thereP thereQ

/-- A new process that is not refused finds no holder. -/
theorem Named.of_passes {pid : Pid} (named : Named l) (idle : l.phase pid = .absent)
    (passes : refuses policy l pid = false) (q : Pid) : l.phase q ≠ .holding := by
  intro holding
  have other : q ≠ pid := by
    rintro rfl
    cases idle.symm.trans holding
  have file := named q holding
  simp [refuses, file, holding, other] at passes

/-- One step, for a lock whose holder is named. -/
theorem exclusive_step_iff (exclusive : Exclusive l) (named : Named l) (e : Event Pid) :
    Exclusive (step policy l e).2 ↔ Spares policy l e := by
  cases e with
  | bystander pid =>
    refine iff_of_true ?_ trivial
    simp only [step]
    split
    · exact exclusive.set (by simp [Phase.inside])
    · exact exclusive
  | check pid =>
    by_cases idle : l.phase pid = .absent
    · cases refused : refuses policy l pid with
      | true =>
        refine iff_of_true ?_ (fun _ => Or.inl refused)
        simpa [step, idle, refused] using exclusive
      | false =>
        have next : Exclusive (step policy l (.check pid)).2 ↔ Exclusive (l.set pid .checked) := by
          simp [step, idle, refused, Exclusive]
        refine next.trans ?_
        constructor
        · intro after _
          refine Or.inr fun q checked => ?_
          have other : q ≠ pid := by
            rintro rfl
            rw [idle] at checked
            cases checked
          apply other
          apply after q pid
          · exact Or.inl ((set_of_ne _ other).trans checked)
          · exact Or.inl (set_self ..)
        · intro spared
          have nobody := (spared idle).resolve_left (by simp [refused])
          apply exclusive.set
          intro _ q inside
          rcases inside with checked | holding
          · exact absurd checked (nobody q)
          · exact absurd holding (named.of_passes idle refused q)
    · exact iff_of_true (by simpa [step, idle] using exclusive) (fun absent => absurd absent idle)
  | write pid =>
    refine iff_of_true ?_ trivial
    simp only [step]
    split
    · next checked => exact exclusive.set fun _ q inside => exclusive q pid inside (Or.inl checked)
    · exact exclusive
  | leave pid =>
    refine iff_of_true ?_ trivial
    simp only [step]
    split
    · exact exclusive.set (by simp [Phase.inside])
    · exact exclusive
  | die pid => exact iff_of_true (exclusive.set (by simp [Phase.inside])) trivial

theorem Named.set {pid : Pid} {phase : Phase} (named : Named l) (other : phase ≠ .holding) :
    Named (l.set pid phase) := by
  intro p holding
  by_cases own : p = pid
  · subst own
    exact absurd ((set_self ..).symm.trans holding) other
  · exact named p ((set_of_ne _ own).symm.trans holding)

theorem named_step (exclusive : Exclusive l) (named : Named l) (e : Event Pid) :
    Named (step policy l e).2 := by
  cases e with
  | bystander pid =>
    simp only [step]
    split
    · exact named.set (by simp)
    · exact named
  | check pid =>
    simp only [step]
    split
    · next idle =>
      split
      · exact named
      · next passes =>
        intro p holding
        by_cases own : p = pid
        · subst own
          cases (set_self ..).symm.trans holding
        · have before : l.phase p = .holding := (set_of_ne _ own).symm.trans holding
          exact absurd before (named.of_passes idle (by simpa using passes) p)
    · exact named
  | write pid =>
    simp only [step]
    split
    · next checked =>
      intro p holding
      by_cases own : p = pid
      · exact congrArg some own.symm
      · have before : l.phase p = .holding := (set_of_ne _ own).symm.trans holding
        exact absurd (exclusive p pid (Or.inr before) (Or.inl checked)) own
    · exact named
  | leave pid =>
    simp only [step]
    split
    · next holder =>
      intro p holding
      by_cases own : p = pid
      · subst own
        cases (set_self ..).symm.trans holding
      · have before : l.phase p = .holding := (set_of_ne _ own).symm.trans holding
        exact absurd (exclusive p pid (Or.inr before) (Or.inr holder)) own
    · exact named
  | die pid => exact named.set (by simp)

end

/-- Two processes are never past their look together exactly in the runs in which nobody looks,
unless it is refused, while another stands between its look and its write. -/
theorem exclusive_iff_spares {l : Lock Pid} (outside : ∀ p, ¬ (l.phase p).inside)
    (run : List (Event Pid)) :
    (∀ front back, run = front ++ back → Exclusive (Mealy.final (step policy) l front)) ↔
      Mealy.Along (step policy) (Spares policy) l run := by
  have exclusive : Exclusive l := fun p _ inside _ => absurd inside (outside p)
  have named : Named l := fun p holding => absurd (Or.inr holding) (outside p)
  apply Mealy.forall_final_iff_along_of _ _ exclusive named run
  · intro l e exclusive named
    exact exclusive_step_iff exclusive named e
  · intro l e exclusive named _
    exact named_step exclusive named e

end LockFiles
