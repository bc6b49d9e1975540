import AddMessenger.LockFiles
import AddMessenger.Numerals

/-!
# One command at a time

The start of `main` in `client/src/main.rs` on Unix: `add.pid` is there for every command but
`listen`, and `add_listen.pid` for `listen`. A command looks at its file, writes its process id
into it, and `PidDrop` removes the file when the command returns.
-/

namespace CommandLock

open LockFiles Numerals

/-- The process ids that the system gives out, as `i32`. -/
abbrev Pid : Type := {pid : ℕ // 0 < pid ∧ pid < 2 ^ 31}

inductive PidFile where
  | absent
  | unreadable
  | text (content : String)

/-- One of the two files and what the processes do that use it; a bystander is any other process
that this user may signal. -/
structure Home where
  file : PidFile
  phase : Pid → Phase

def parseI32 (text : List Char) : Option ℤ := parseInteger (-2 ^ 31) (2 ^ 31 - 1) text

def oldPid (content : String) : ℤ := (parseI32 (trimmed content)).getD 0

def toPid (old : ℤ) : Option Pid :=
  if range : 0 < old ∧ old < 2 ^ 31 then some ⟨old.toNat, by omega⟩ else none

/-- `old_pid > 0 && libc::kill(old_pid, 0) == 0`, asked by the process `pid`. -/
def pidAlive (h : Home) (pid : Pid) (old : ℤ) : Bool :=
  match toPid old with
  | some owner => owner = pid || h.phase owner != .absent
  | none => false

/-- What a command other than `listen` leaves of the file, or `none` if it is refused. -/
def checkMain (h : Home) (pid : Pid) : Option PidFile :=
  match h.file with
  | .text content => if pidAlive h pid (oldPid content) then none else some h.file
  | file => some file

/-- The same for `listen`: its own id may stand there, and any other file is removed. -/
def checkListen (h : Home) (pid : Pid) : Option PidFile :=
  match h.file with
  | .text content =>
    if parseI32 (trimmed content) = some (pid.val : ℤ) then some h.file
    else if pidAlive h pid (oldPid content) then none
    else some .absent
  | _ => some .absent

def check (listen : Bool) (h : Home) (pid : Pid) : Option PidFile :=
  if listen then checkListen h pid else checkMain h pid

def pidText (pid : Pid) : String := toString pid.val ++ "\n"

def Home.set (h : Home) (pid : Pid) (phase : Phase) : Home :=
  { h with phase := Function.update h.phase pid phase }

/-- A step of a process; the answer tells whether a command was refused. -/
def step (listen : Bool) (h : Home) : Event Pid → Bool × Home
  | .bystander pid => (false, if h.phase pid = .absent then h.set pid .bystander else h)
  | .check pid =>
    if h.phase pid = .absent then
      match check listen h pid with
      | none => (true, h)
      | some file => (false, { h.set pid .checked with file })
    else (false, h)
  | .write pid =>
    (false, if h.phase pid = .checked then
      { h.set pid .holding with file := .text (pidText pid) } else h)
  -- `PidDrop`
  | .leave pid =>
    (false, if h.phase pid = .holding then { h.set pid .absent with file := .absent } else h)
  | .die pid => (false, h.set pid .absent)

/-- No two commands are past their look at the same time. -/
def Exclusive (h : Home) : Prop :=
  ∀ p q, (h.phase p).inside → (h.phase q).inside → p = q

/-- Nobody looks while another command stands between its look and its write, unless it is
refused. -/
def Spares (listen : Bool) (h : Home) : Event Pid → Prop
  | .check pid =>
    h.phase pid = .absent → check listen h pid = none ∨ ∀ q, h.phase q ≠ .checked
  | _ => True

def policyOf (listen : Bool) : Policy := ⟨listen, listen⟩

def ownerOf : PidFile → Option Pid
  | .text content => toPid (oldPid content)
  | _ => none

def lockOf (h : Home) : Lock Pid := ⟨ownerOf h.file, h.phase⟩

theorem toPid_val (pid : Pid) : toPid (pid.val : ℤ) = some pid := by
  obtain ⟨n, positive, small⟩ := pid
  simp only [toPid]
  rw [dif_pos (by omega)]
  simp

theorem toPid_eq_some {old : ℤ} {pid : Pid} (owner : toPid old = some pid) : old = pid.val := by
  unfold toPid at owner
  split at owner
  · cases owner
    change old = (old.toNat : ℤ)
    omega
  · cases owner

/-- What a command has written names it. -/
theorem ownerOf_pidText (pid : Pid) : ownerOf (.text (pidText pid)) = some pid := by
  have small : (pid.val : ℤ) ≤ 2 ^ 31 - 1 := by
    have := pid.property.2
    omega
  have parsed : parseI32 (trimmed (pidText pid)) = some (pid.val : ℤ) := by
    rw [parseI32, pidText, trimmed_line]
    exact parseInteger_toString (by omega) small
  simp only [ownerOf, oldPid, parsed, Option.getD_some, toPid_val]

theorem parseI32_own_iff (content : String) (pid : Pid) :
    parseI32 (trimmed content) = some (pid.val : ℤ) ↔ ownerOf (.text content) = some pid := by
  constructor
  · intro parsed
    simp only [ownerOf, oldPid, parsed, Option.getD_some, toPid_val]
  · intro owner
    have value := toPid_eq_some owner
    unfold oldPid at value
    cases parsed : parseI32 (trimmed content) with
    | some old => simpa only [parsed, Option.getD_some] using congrArg some value
    | none =>
      have positive := pid.property.1
      simp only [parsed, Option.getD_none] at value
      omega

theorem pidAlive_eq (h : Home) (pid : Pid) (content : String) :
    pidAlive h pid (oldPid content) =
      (ownerOf (.text content)).any fun owner => owner = pid || h.phase owner != .absent := by
  change (match toPid (oldPid content) with
    | some owner => owner = pid || h.phase owner != .absent
    | none => false) = (toPid (oldPid content)).any _
  cases toPid (oldPid content) with
  | none => rfl
  | some owner => rfl

/-- A look at the text is a look at the lock. -/
theorem check_lockOf (listen : Bool) (h : Home) (pid : Pid) :
    (check listen h pid).map ownerOf =
      if refuses (policyOf listen) (lockOf h) pid then none
      else some (looked (policyOf listen) (lockOf h) pid) := by
  obtain ⟨file, phase⟩ := h
  cases file with
  | absent => cases listen <;> rfl
  | unreadable => cases listen <;> rfl
  | text content =>
    cases listen with
    | false =>
      have alive := pidAlive_eq ⟨.text content, phase⟩ pid content
      have same : refuses (policyOf false) (lockOf ⟨.text content, phase⟩) pid =
          pidAlive ⟨.text content, phase⟩ pid (oldPid content) := by
        rw [alive]
        cases owner : ownerOf (.text content) with
        | none => simp [refuses, lockOf, owner]
        | some other => by_cases own : other = pid <;> simp [refuses, lockOf, owner, own, policyOf]
      rw [same]
      change Option.map ownerOf (if _ then none else some (.text content)) = _
      split
      · rfl
      · simp [looked, policyOf, lockOf]
    | true =>
      have alive := pidAlive_eq ⟨.text content, phase⟩ pid content
      change Option.map ownerOf (if _ then some (.text content)
        else if _ then none else some .absent) = _
      rw [alive]
      simp only [parseI32_own_iff, refuses, looked, lockOf, policyOf]
      cases owner : ownerOf (.text content) with
      | none => simp [ownerOf]
      | some other =>
        by_cases own : other = pid
        · simp [own, owner]
        · by_cases gone : phase other = .absent <;> simp [own, gone, ownerOf]

theorem simulates_lock (listen : Bool) :
    Mealy.Simulates (step listen) (LockFiles.step (policyOf listen)) fun h l => lockOf h = l := by
  rintro h _ e rfl
  cases e with
  | bystander pid =>
    by_cases idle : h.phase pid = .absent <;>
      simp [step, LockFiles.step, lockOf, idle, Home.set, Lock.set]
  | check pid =>
    by_cases idle : h.phase pid = .absent
    · have look := check_lockOf listen h pid
      cases found : check listen h pid with
      | none =>
        have refused : refuses (policyOf listen) (lockOf h) pid = true := by
          by_contra passes
          simp [found, passes] at look
        simp [step, LockFiles.step, idle, found, refused]
        simp [lockOf, idle]
      | some file =>
        have passes : refuses (policyOf listen) (lockOf h) pid = false := by
          by_contra refused
          simp [found, refused] at look
        have left : ownerOf file = looked (policyOf listen) (lockOf h) pid := by
          simpa [found, passes] using look
        simp [step, LockFiles.step, idle, found, passes]
        simp [lockOf, idle, left, Home.set, Lock.set]
    · simp [step, LockFiles.step, lockOf, idle]
  | write pid =>
    by_cases checked : h.phase pid = .checked <;>
      simp [step, LockFiles.step, lockOf, checked, Home.set, Lock.set, ownerOf_pidText]
  | leave pid =>
    by_cases holding : h.phase pid = .holding <;>
      simp [step, LockFiles.step, lockOf, holding, Home.set, Lock.set, ownerOf]
  | die pid => simp [step, LockFiles.step, lockOf, Home.set, Lock.set]

theorem refused_iff (listen : Bool) (h : Home) (pid : Pid) :
    check listen h pid = none ↔ refuses (policyOf listen) (lockOf h) pid = true := by
  have look := check_lockOf listen h pid
  constructor
  · intro refused
    by_contra passes
    simp [refused, passes] at look
  · intro refused
    simpa [refused] using look

/-- With either file, two commands are never past their look together exactly in the runs in
which none looks, unless it is refused, while another stands between its look and its write. -/
theorem commands_exclusive_iff (listen : Bool) {h : Home}
    (outside : ∀ p, ¬ (h.phase p).inside) (run : List (Event Pid)) :
    (∀ front back, run = front ++ back → Exclusive (Mealy.final (step listen) h front)) ↔
      Mealy.Along (step listen) (Spares listen) h run := by
  have spares : Mealy.Along (step listen) (Spares listen) h run ↔
      Mealy.Along (LockFiles.step (policyOf listen)) (LockFiles.Spares (policyOf listen))
        (lockOf h) run := by
    refine (simulates_lock listen).along ?_ rfl run
    rintro s _ e rfl
    cases e with
    | check pid => simp only [Spares, LockFiles.Spares, refused_iff]; rfl
    | _ => exact Iff.rfl
  refine Iff.trans ?_ spares.symm
  refine Iff.trans ?_ (exclusive_iff_spares (policyOf listen) (l := lockOf h) outside run)
  refine forall_congr' fun front => forall_congr' fun back => imp_congr_right fun _ => ?_
  rw [← (simulates_lock listen).final (s := h) rfl front]
  rfl

/-- Two commands that look before either writes. -/
def crossed (p q : Pid) : List (Event Pid) := [.check p, .check q, .write p, .write q]

/-- One after the other, and then crossed. -/
theorem commands_exclusive_start :
    (∀ front back, ([.check ⟨1, by decide⟩, .write ⟨1, by decide⟩, .leave ⟨1, by decide⟩] :
        List (Event Pid)) = front ++ back →
      Exclusive (Mealy.final (step false) ⟨.absent, fun _ => .absent⟩ front)) ∧
    ¬ ∀ front back, crossed ⟨1, by decide⟩ ⟨2, by decide⟩ = front ++ back →
      Exclusive (Mealy.final (step false) ⟨.absent, fun _ => .absent⟩ front) := by
  have outside : ∀ p : Pid, ¬ (Phase.absent).inside := by simp [Phase.inside]
  constructor
  · apply (commands_exclusive_iff false (h := ⟨.absent, fun _ => .absent⟩) outside _).mpr
    refine ⟨fun _ => Or.inr fun q => by simp, trivial, trivial, trivial⟩
  · intro exclusive
    have spares := (commands_exclusive_iff false (h := ⟨.absent, fun _ => .absent⟩) outside _).mp
      exclusive
    have idle : (step false ⟨.absent, fun _ => .absent⟩ (.check ⟨1, by decide⟩)).2.phase
        ⟨2, by decide⟩ = .absent := by decide
    rcases spares.2.1 idle with refused | nobody
    · cases refused
    · exact nobody ⟨1, by decide⟩ (by decide)

end CommandLock
