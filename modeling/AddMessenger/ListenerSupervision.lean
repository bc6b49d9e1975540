import AddMessenger.Simulations
import Mathlib.Logic.Function.Basic

/-!
# The background listener and its supervisor

`desktop-ui/electron/main.js` spawns `add listen`, keeps a handle of it and its process id in
`add_listen.pid`, and stops or restarts it; the child (`client/src/main.rs`) looks at the same
file, writes it and removes it at its end. A listener may also be launched from a terminal, and
the app may die. The events of the app, of the processes and of the system come in any order. The
file holds a process id; a spawn that fails is left out.
-/

namespace ListenerSupervision

variable {Pid : Type*} [DecidableEq Pid]

/-- A child that has ended is a zombie until the app has reaped it, and then waits for its event
`close`. -/
inductive Phase where
  | absent
  | booting
  | checked
  | serving
  | zombie
  | reaped
  deriving DecidableEq

def Phase.running : Phase → Bool
  | .booting | .checked | .serving => true
  | _ => false

/-- What `kill(pid, 0)` tells. -/
def Phase.alive : Phase → Bool
  | .booting | .checked | .serving | .zombie => true
  | _ => false

/-- `listenProcess`, the file, the timers of `restartListenProcess` and the processes: `own` for
the children of the app, `signalled` for those that were sent SIGTERM. -/
structure World (Pid : Type*) where
  listenProcess : Option Pid
  file : Option Pid
  timers : ℕ
  phase : Pid → Phase
  own : Pid → Bool
  signalled : Pid → Bool

inductive Event (Pid : Type*) where
  | start (pid : Pid)
  | stop
  | restart
  | timer (pid : Pid)
  | appDies
  | launch (pid : Pid)
  | check (pid : Pid)
  | write (pid : Pid)
  | exit (pid : Pid)
  | crash (pid : Pid)
  | reap (pid : Pid)
  | close (pid : Pid)

namespace World

def setPhase (w : World Pid) (pid : Pid) (phase : Phase) : World Pid :=
  { w with phase := Function.update w.phase pid phase }

def signal (w : World Pid) (pid : Pid) : World Pid :=
  { w with signalled := Function.update w.signalled pid true }

/-- A new process under an id that is free. -/
def spawn (w : World Pid) (pid : Pid) (own : Bool) : World Pid :=
  { w with
    phase := Function.update w.phase pid .booting
    own := Function.update w.own pid own
    signalled := Function.update w.signalled pid false }

/-- The process has ended; only the app has to reap it. -/
def ended (w : World Pid) (pid : Pid) : World Pid :=
  w.setPhase pid (if w.own pid then .zombie else .absent)

end World

/-- What `checkExistingListenProcess` finds. -/
def existingListener (w : World Pid) : Option Pid := w.file.filter fun pid => (w.phase pid).alive

def killExistingListenProcess (w : World Pid) : World Pid :=
  match existingListener w with
  | some pid => { w.signal pid with file := none }
  | none => { w with file := none }

def startListenProcess (w : World Pid) (pid : Pid) : World Pid :=
  if w.listenProcess.any fun handle => (w.phase handle).alive then w
  else
    { (killExistingListenProcess w).spawn pid true with
      listenProcess := some pid
      file := some pid }

def killListenProcess (w : World Pid) : World Pid :=
  match w.listenProcess with
  | some handle => { w.signal handle with listenProcess := none, file := none }
  | none => killExistingListenProcess w

/-- The look of a child at the file: its own id may stand there, another that is alive ends it,
and any other is removed. -/
def checkPid (w : World Pid) (pid : Pid) : World Pid :=
  match w.file with
  | none => w.setPhase pid .checked
  | some other =>
    if other = pid then w.setPhase pid .checked
    else if (w.phase other).alive then w.ended pid
    else { w.setPhase pid .checked with file := none }

def step (w : World Pid) : Event Pid → Unit × World Pid
  | .start pid => ((), if w.phase pid = .absent then startListenProcess w pid else w)
  | .stop => ((), killListenProcess w)
  | .restart => ((), { killListenProcess w with timers := w.timers + 1 })
  | .timer pid =>
    ((), if 0 < w.timers ∧ w.phase pid = .absent then
      startListenProcess { w with timers := w.timers - 1 } pid else w)
  -- its children live on, and nobody waits for them
  | .appDies =>
    ((), { w with
      listenProcess := none
      timers := 0
      phase := fun pid => if (w.phase pid).running then w.phase pid else .absent
      own := fun _ => false })
  | .launch pid => ((), if w.phase pid = .absent then w.spawn pid false else w)
  | .check pid => ((), if w.phase pid = .booting then checkPid w pid else w)
  | .write pid =>
    ((), if w.phase pid = .checked then { w.setPhase pid .serving with file := some pid } else w)
  -- `PidDrop`
  | .exit pid => ((), if w.phase pid = .serving then { w.ended pid with file := none } else w)
  | .crash pid => ((), if (w.phase pid).running then w.ended pid else w)
  | .reap pid => ((), if w.phase pid = .zombie then w.setPhase pid .reaped else w)
  | .close pid =>
    ((), if w.phase pid = .reaped ∧ w.own pid then
      { w.setPhase pid .absent with listenProcess := none, file := none } else w)

/-- A child of the app that runs and was not told to stop. -/
structure Active (w : World Pid) (pid : Pid) : Prop where
  own : w.own pid = true
  running : (w.phase pid).running = true
  unsignalled : w.signalled pid = false

/-- The app has a handle of each listener that it has not told to stop. -/
def Controlled (w : World Pid) : Prop := ∀ pid, Active w pid → w.listenProcess = some pid

/-- The event `close` of a listener does not come while a later one is active. -/
def Spares (w : World Pid) : Event Pid → Prop
  | .close pid =>
    w.phase pid = .reaped → w.own pid = true → ∀ later, ¬ Active w later
  | _ => True

section

variable {w : World Pid}

theorem Phase.alive_of_running {phase : Phase} (running : phase.running = true) :
    phase.alive = true := by
  cases phase <;> simp_all [Phase.running, Phase.alive]

omit [DecidableEq Pid] in
/-- A step that leaves the handle and makes nothing active leaves the app in control. -/
theorem Controlled.of_active {w' : World Pid} (controlled : Controlled w)
    (handle : w'.listenProcess = w.listenProcess) (before : ∀ pid, Active w' pid → Active w pid) :
    Controlled w' :=
  fun pid active => handle.trans (controlled pid (before pid active))

theorem active_setPhase {pid p : Pid} {phase : Phase}
    (falls : phase.running = true → (w.phase pid).running = true)
    (active : Active (w.setPhase pid phase) p) : Active w p := by
  obtain ⟨own, running, unsignalled⟩ := active
  refine ⟨own, ?_, unsignalled⟩
  by_cases same : p = pid
  · subst same
    exact falls (by simpa [World.setPhase] using running)
  · simpa [World.setPhase, same] using running

theorem active_signal {pid p : Pid} (active : Active (w.signal pid) p) : p ≠ pid ∧ Active w p := by
  obtain ⟨own, running, unsignalled⟩ := active
  by_cases same : p = pid
  · subst same
    simp [World.signal] at unsignalled
  · exact ⟨same, own, running, by simpa [World.signal, same] using unsignalled⟩

theorem active_killExisting {p : Pid} (active : Active (killExistingListenProcess w) p) :
    Active w p := by
  unfold killExistingListenProcess at active
  split at active
  · next pid _ =>
    have signalled : Active (w.signal pid) p := ⟨active.own, active.running, active.unsignalled⟩
    exact (active_signal signalled).2
  · exact ⟨active.own, active.running, active.unsignalled⟩

/-- Whoever is told to stop, nobody is active afterwards. -/
theorem not_active_kill (controlled : Controlled w) (p : Pid) :
    ¬ Active (killListenProcess w) p := by
  intro active
  unfold killListenProcess at active
  split at active
  · next handle found =>
    have signalled : Active (w.signal handle) p :=
      ⟨active.own, active.running, active.unsignalled⟩
    obtain ⟨other, before⟩ := active_signal signalled
    have same := controlled p before
    rw [found] at same
    exact other (Option.some.inj same).symm
  · next found =>
    have same := controlled p (active_killExisting active)
    rw [found] at same
    cases same

theorem controlled_start {pid : Pid} (controlled : Controlled w) :
    Controlled (startListenProcess w pid) := by
  unfold startListenProcess
  split
  · exact controlled
  · next idle =>
    intro p active
    by_cases same : p = pid
    · exact congrArg some same.symm
    · have before : Active (killExistingListenProcess w) p := by
        obtain ⟨own, running, unsignalled⟩ := active
        refine ⟨?_, ?_, ?_⟩
        · simpa [World.spawn, same] using own
        · simpa [World.spawn, same] using running
        · simpa [World.spawn, same] using unsignalled
      have earlier := active_killExisting before
      have handle := controlled p earlier
      -- a handle that is active would have made the start return at once
      simp [handle, Phase.alive_of_running earlier.running] at idle

theorem active_ended {pid p : Pid} (active : Active (w.ended pid) p) : Active w p := by
  refine active_setPhase ?_ active
  split <;> simp [Phase.running]

theorem controlled_step_iff (controlled : Controlled w) (e : Event Pid) :
    Controlled (step w e).2 ↔ Spares w e := by
  cases e with
  | start pid =>
    refine iff_of_true ?_ trivial
    simp only [step]
    split
    · exact controlled_start controlled
    · exact controlled
  | stop => exact iff_of_true (fun p active => absurd active (not_active_kill controlled p)) trivial
  | restart =>
    refine iff_of_true (fun p active => ?_) trivial
    have killed : Active (killListenProcess w) p := ⟨active.own, active.running, active.unsignalled⟩
    exact absurd killed (not_active_kill controlled p)
  | timer pid =>
    refine iff_of_true ?_ trivial
    simp only [step]
    split
    · exact controlled_start fun p active =>
        controlled p ⟨active.own, active.running, active.unsignalled⟩
    · exact controlled
  | appDies => exact iff_of_true (fun p active => by cases active.own) trivial
  | launch pid =>
    refine iff_of_true ?_ trivial
    simp only [step]
    split
    · refine controlled.of_active rfl fun p active => ?_
      obtain ⟨own, running, unsignalled⟩ := active
      have other : p ≠ pid := by
        rintro rfl
        simp [World.spawn] at own
      refine ⟨?_, ?_, ?_⟩
      · simpa [World.spawn, other] using own
      · simpa [World.spawn, other] using running
      · simpa [World.spawn, other] using unsignalled
    · exact controlled
  | check pid =>
    refine iff_of_true ?_ trivial
    simp only [step]
    split
    · next booting =>
      have running : (w.phase pid).running = true := by simp [booting, Phase.running]
      unfold checkPid
      split
      · exact controlled.of_active rfl fun p => active_setPhase fun _ => running
      · split
        · exact controlled.of_active rfl fun p => active_setPhase fun _ => running
        · split
          · exact controlled.of_active rfl fun p => active_ended
          · refine controlled.of_active rfl fun p active => ?_
            have before : Active (w.setPhase pid .checked) p :=
              ⟨active.own, active.running, active.unsignalled⟩
            exact active_setPhase (fun _ => running) before
    · exact controlled
  | write pid =>
    refine iff_of_true ?_ trivial
    simp only [step]
    split
    · next checked =>
      refine controlled.of_active rfl fun p active => ?_
      have before : Active (w.setPhase pid .serving) p :=
        ⟨active.own, active.running, active.unsignalled⟩
      exact active_setPhase (by simp [checked, Phase.running]) before
    · exact controlled
  | exit pid =>
    refine iff_of_true ?_ trivial
    simp only [step]
    split
    · refine controlled.of_active rfl fun p active => ?_
      have before : Active (w.ended pid) p :=
        ⟨active.own, active.running, active.unsignalled⟩
      exact active_ended before
    · exact controlled
  | crash pid =>
    refine iff_of_true ?_ trivial
    simp only [step]
    split
    · exact controlled.of_active rfl fun p => active_ended
    · exact controlled
  | reap pid =>
    refine iff_of_true ?_ trivial
    simp only [step]
    split
    · exact controlled.of_active rfl fun p => active_setPhase (by simp [Phase.running])
    · exact controlled
  | close pid =>
    by_cases ends : w.phase pid = .reaped ∧ w.own pid = true
    · have after : ∀ p, Active (step w (.close pid)).2 p ↔ Active w p := by
        intro p
        have other : (w.phase p).running = true → p ≠ pid := by
          rintro running rfl
          simp [ends.1, Phase.running] at running
        simp only [step, if_pos ends]
        constructor
        · rintro ⟨own, running, unsignalled⟩
          have before : Active (w.setPhase pid .absent) p := ⟨own, running, unsignalled⟩
          exact active_setPhase (by simp [Phase.running]) before
        · rintro ⟨own, running, unsignalled⟩
          refine ⟨own, ?_, unsignalled⟩
          simpa [World.setPhase, other running] using running
      have handle : (step w (.close pid)).2.listenProcess = none := by
        simp only [step, if_pos ends]
      constructor
      · intro kept _ _ later active
        have same := kept later ((after later).mpr active)
        rw [handle] at same
        cases same
      · intro spared p active
        exact absurd ((after p).mp active) (spared ends.1 ends.2 p)
    · refine iff_of_true ?_ (fun reaped own => absurd ⟨reaped, own⟩ ends)
      simpa only [step, if_neg ends] using controlled

end

def quiet : World Pid :=
  { listenProcess := none, file := none, timers := 0, phase := fun _ => .absent,
    own := fun _ => false, signalled := fun _ => false }

omit [DecidableEq Pid] in
theorem controlled_quiet : Controlled (quiet : World Pid) := by
  intro p active
  cases active.own

/-- In every run the app keeps a handle of each listener that it has not told to stop, exactly if
no `close` of an old listener comes while a later one is active. -/
theorem listener_controlled_iff (run : List (Event Pid)) :
    (∀ front back, run = front ++ back → Controlled (Mealy.final step quiet front)) ↔
      Mealy.Along step Spares (quiet : World Pid) run := by
  apply Mealy.forall_final_iff_along _ controlled_quiet run
  intro w e controlled
  exact controlled_step_iff controlled e

/-- In such a run a request to stop, or to restart, reaches every listener of the app. -/
theorem stop_reaches_all {run : List (Event Pid)}
    (spares : Mealy.Along step Spares (quiet : World Pid) run) {front back : List (Event Pid)}
    (split : run = front ++ back) (p : Pid) :
    ¬ Active (Mealy.final step quiet (front ++ [.stop])) p := by
  have controlled := (listener_controlled_iff run).mpr spares front back split
  rw [Mealy.final_append]
  exact not_active_kill controlled p

theorem stop_reaches_all_serving :
    ¬ Active (Mealy.final step quiet [.start 1, .check 1, .write 1, .stop]) 1 :=
  have spares : Mealy.Along step Spares (quiet : World ℕ) [.start 1, .check 1, .write 1] :=
    ⟨trivial, trivial, trivial, trivial⟩
  stop_reaches_all spares (List.append_nil _).symm 1

/-- A restart whose old listener takes longer to end than the new one to start. -/
def slowEnd : List (Event ℕ) :=
  [.start 1, .check 1, .write 1, .restart, .timer 2, .check 2, .write 2, .exit 1, .reap 1, .close 1]

/-- Its end takes the handle of the new listener, and a request to stop finds nothing. -/
example : (Mealy.final step quiet (slowEnd ++ [.stop])).phase 2 = .serving ∧
    (Mealy.final step quiet (slowEnd ++ [.stop])).signalled 2 = false := by decide

end ListenerSupervision
