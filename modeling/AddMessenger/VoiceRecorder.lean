import AddMessenger.Simulations
import Mathlib.Logic.Function.Basic

/-!
# The voice recorder

`desktop-ui/src/services/voiceRecorder.ts`, one step from one `await` to the next: calls of
`start`, `stop` and `cancel`, the timer of thirty seconds, and what the devices report, in any
order. A stream with its `MediaRecorder` is a tape; tapes and timers are numbered as they come.
-/

namespace VoiceRecorder

def maxPayloadSize : ℕ := 10 * 1024 * 1024

inductive VoiceRecorderError where
  | noMicrophonePermission
  | microphoneNotFound
  | recordingFailed
  | encodingFailed
  | payloadTooLarge
  | timeout
  deriving DecidableEq

/-- `#state`; a recording knows its tape. -/
inductive State where
  | idle
  | initializing
  | recording (tape : ℕ)
  | stopping
  deriving DecidableEq

/-- What a call of `start` waits for. -/
inductive Awaited where
  | permission
  | stream
  deriving DecidableEq

/-- What `getUserMedia` and the `MediaRecorder` make of a start. -/
inductive Acquired where
  | refused (e : VoiceRecorderError)
  | unsupported
  -- the stream is there, and the recorder throws
  | recorderThrows
  -- the recorder runs, and the `AudioContext` behind it throws
  | monitoringThrows
  | recorder
  deriving DecidableEq

/-- Whether the tracks run, and whether a stop of the recorder has yet to run `onstop`. -/
structure Tape where
  live : Bool
  onstop : Bool
  deriving DecidableEq

structure Recorder where
  state : State
  timeoutId : Option ℕ
  armed : ℕ → Bool
  timers : ℕ
  tape : ℕ → Tape
  tapes : ℕ
  starts : ℕ → Option Awaited

inductive Event where
  | start (call : ℕ)
  | permission (call : ℕ) (granted : Bool)
  | stream (call : ℕ) (acquired : Acquired)
  | stop
  | cancel
  | timeout (timer : ℕ)
  -- the tracks of a tape end by themselves, and then its recorder stops
  | ends (tape size : ℕ)
  | fails (tape : ℕ)
  -- the stop behind an error
  | stops (tape size : ℕ)
  deriving DecidableEq

/-- What a step tells its caller or the callbacks. -/
inductive Answer where
  | nothing
  | started (ok : Bool)
  | onError (e : VoiceRecorderError)
  | resolvedNull
  | rejected
  | onComplete (size : ℕ)
  deriving DecidableEq

namespace Recorder

def setTape (r : Recorder) (id : ℕ) (tape : Tape) : Recorder :=
  { r with tape := Function.update r.tape id tape }

def setStart (r : Recorder) (call : ℕ) (awaited : Option Awaited) : Recorder :=
  { r with starts := Function.update r.starts call awaited }

def clearTimeout (r : Recorder) : Recorder :=
  match r.timeoutId with
  | some timer => { r with timeoutId := none, armed := Function.update r.armed timer false }
  | none => r

/-- A new tape whose tracks run. -/
def addTape (r : Recorder) (onstop : Bool) : Recorder :=
  { r with tape := Function.update r.tape r.tapes ⟨true, onstop⟩, tapes := r.tapes + 1 }

/-- The timer that is there already is not cleared. -/
def setTimeout (r : Recorder) : Recorder :=
  { r with
    timeoutId := some r.timers
    armed := Function.update r.armed r.timers true
    timers := r.timers + 1 }

end Recorder

def start (r : Recorder) (call : ℕ) : Answer × Recorder :=
  if r.starts call ≠ none then (.nothing, r)
  else if r.state = .idle then
    (.nothing, { r.setStart call (some .permission) with state := .initializing })
  else (.onError .recordingFailed, r)

def permission (r : Recorder) (call : ℕ) (granted : Bool) : Answer × Recorder :=
  if r.starts call = some .permission then
    if granted then (.nothing, r.setStart call (some .stream))
    else (.onError .noMicrophonePermission, { r.setStart call none with state := .idle })
  else (.nothing, r)

def stream (r : Recorder) (call : ℕ) (acquired : Acquired) : Answer × Recorder :=
  if r.starts call = some .stream then
    match acquired with
    | .refused e => (.onError e, { r.setStart call none with state := .idle })
    | .unsupported => (.onError .encodingFailed, { r.setStart call none with state := .idle })
    | .recorderThrows =>
      (.onError .recordingFailed, { (r.setStart call none).addTape false with state := .idle })
    | .monitoringThrows =>
      (.onError .recordingFailed,
        { ((r.setStart call none).addTape true).setTimeout with state := .idle })
    | .recorder =>
      (.started true,
        { ((r.setStart call none).addTape true).setTimeout with state := .recording r.tapes })
  else (.nothing, r)

/-- The state is `stopping` before its recorder is read out of it, so there is none to stop. -/
def stop (r : Recorder) : Answer × Recorder :=
  match r.state with
  | .recording _ => (.rejected, { r.clearTimeout with state := .stopping })
  | _ => (.resolvedNull, r)

def cancel (r : Recorder) : Answer × Recorder :=
  match r.state with
  | .recording tape =>
    (.nothing, { r.clearTimeout.setTape tape ⟨false, false⟩ with state := .idle })
  | _ => (.nothing, { r with state := .idle })

def timeout (r : Recorder) (timer : ℕ) : Answer × Recorder :=
  if r.armed timer then
    (.onError .timeout, (stop { r with armed := Function.update r.armed timer false }).2)
  else (.nothing, r)

/-- The handler that `start` attached; the tracks that it stops have ended by then. -/
def onstop (r : Recorder) (size : ℕ) : Answer × Recorder :=
  if maxPayloadSize < size then (.onError .payloadTooLarge, r)
  else (.onComplete size, { r.clearTimeout with state := .idle })

def ends (r : Recorder) (tape size : ℕ) : Answer × Recorder :=
  if (r.tape tape).live then
    if (r.tape tape).onstop then onstop (r.setTape tape ⟨false, false⟩) size
    else (.nothing, r.setTape tape ⟨false, false⟩)
  else (.nothing, r)

def fails (r : Recorder) (tape : ℕ) : Answer × Recorder :=
  if (r.tape tape).live ∧ (r.tape tape).onstop then
    (.onError .recordingFailed,
      { r.clearTimeout.setTape tape ⟨false, true⟩ with state := .idle })
  else (.nothing, r)

/-- A recorder that failed also stops, and the blob of what it had goes out as complete. -/
def stops (r : Recorder) (tape size : ℕ) : Answer × Recorder :=
  if (r.tape tape).live = false ∧ (r.tape tape).onstop then
    onstop (r.setTape tape ⟨false, false⟩) size
  else (.nothing, r)

def step (r : Recorder) : Event → Answer × Recorder
  | .start call => start r call
  | .permission call granted => permission r call granted
  | .stream call acquired => stream r call acquired
  | .stop => stop r
  | .cancel => cancel r
  | .timeout timer => timeout r timer
  | .ends tape size => ends r tape size
  | .fails tape => fails r tape
  | .stops tape size => stops r tape size

def atLoad : Recorder :=
  { state := .idle, timeoutId := none, armed := fun _ => false, timers := 0,
    tape := fun _ => ⟨false, false⟩, tapes := 0, starts := fun _ => none }

/-- The microphone is in use only for the recording that the state is about. -/
def Follows (r : Recorder) : Prop := ∀ id, (r.tape id).live = true → r.state = .recording id

def Silent (r : Recorder) : Prop := ∀ id, (r.tape id).live = false

/-- Nothing is recorded when a recording is stopped, by hand or by the timer, when a start
resumes, or when the stop behind an error comes, and neither the recorder of a start nor what
watches its level throws. -/
def Spares (r : Recorder) : Event → Prop
  | .permission call false => r.starts call = some .permission → Silent r
  | .stream call acquired => r.starts call = some .stream →
    Silent r ∧ acquired ≠ .recorderThrows ∧ acquired ≠ .monitoringThrows
  | .stop => Silent r
  | .timeout timer => r.armed timer = true → Silent r
  | .stops tape size => (r.tape tape).live = false → (r.tape tape).onstop = true →
    size ≤ maxPayloadSize → Silent r
  | _ => True

@[simp] theorem clearTimeout_frame (r : Recorder) :
    r.clearTimeout.tape = r.tape ∧ r.clearTimeout.state = r.state ∧
      r.clearTimeout.tapes = r.tapes ∧ r.clearTimeout.starts = r.starts := by
  unfold Recorder.clearTimeout
  split <;> exact ⟨rfl, rfl, rfl, rfl⟩

section

variable {r : Recorder}

theorem Silent.follows (silent : Silent r) : Follows r := by
  intro id live
  rw [silent id] at live
  cases live

/-- In another state than that of a recording, following is silence. -/
theorem follows_iff_silent (other : ∀ id, r.state ≠ .recording id) : Follows r ↔ Silent r := by
  refine ⟨fun follows id => ?_, Silent.follows⟩
  cases live : (r.tape id).live with
  | false => rfl
  | true => exact absurd (follows id live) (other id)

theorem silent_congr {r' : Recorder} (tapes : r'.tape = r.tape) : Silent r' ↔ Silent r := by
  simp only [Silent, tapes]

theorem Follows.congr {r' : Recorder} (follows : Follows r) (tapes : r'.tape = r.tape)
    (state : r'.state = r.state) : Follows r' := by
  intro id live
  rw [state]
  exact follows id (by rwa [tapes] at live)

/-- One tape is switched off. -/
theorem live_setTape {id other : ℕ} {onstop : Bool}
    (live : ((r.setTape id ⟨false, onstop⟩).tape other).live = true) :
    other ≠ id ∧ (r.tape other).live = true := by
  by_cases same : other = id
  · subst same
    simp [Recorder.setTape] at live
  · exact ⟨same, by simpa [Recorder.setTape, same] using live⟩

/-- When the tape of a recorder that follows is switched off, it is silent. -/
theorem Follows.silent_setTape {id : ℕ} {onstop : Bool} (follows : Follows r)
    (recording : r.state = .recording id) : Silent (r.setTape id ⟨false, onstop⟩) := by
  intro other
  cases live : ((r.setTape id ⟨false, onstop⟩).tape other).live with
  | false => rfl
  | true =>
    obtain ⟨different, before⟩ := live_setTape live
    have same := follows other before
    rw [recording] at same
    exact absurd (State.recording.inj same).symm different

theorem follows_stop_iff (r : Recorder) : Follows (stop r).2 ↔ Silent r := by
  unfold stop
  split
  · refine (follows_iff_silent (by simp)).trans ?_
    exact silent_congr (by simp)
  · next other =>
    exact follows_iff_silent fun id recording => other id recording

/-- The handler switches no tape. -/
theorem onstop_frame (r : Recorder) (size : ℕ) :
    (onstop r size).2.tape = r.tape ∧ (onstop r size).2.tapes = r.tapes ∧
      ((onstop r size).2.state = r.state ∨ (onstop r size).2.state = .idle) := by
  unfold onstop
  split
  · exact ⟨rfl, rfl, Or.inl rfl⟩
  · exact ⟨by simp, by simp, Or.inr rfl⟩

theorem silent_addTape (r : Recorder) (onstop : Bool) : ¬ Silent (r.addTape onstop) := by
  intro silent
  have off := silent r.tapes
  simp [Recorder.addTape] at off

/-- The tracks of a tape that does not run are stopped once more. -/
theorem silent_setTape_iff {id : ℕ} {onstop : Bool} (off : (r.tape id).live = false) :
    Silent (r.setTape id ⟨false, onstop⟩) ↔ Silent r := by
  constructor
  · intro silent other
    by_cases same : other = id
    · rw [same, off]
    · simpa [Recorder.setTape, same] using silent other
  · intro silent other
    cases live : ((r.setTape id ⟨false, onstop⟩).tape other).live with
    | false => rfl
    | true =>
      have before := (live_setTape live).2
      rw [silent other] at before
      cases before

theorem Follows.setTape {id : ℕ} {onstop : Bool} (follows : Follows r) :
    Follows (r.setTape id ⟨false, onstop⟩) :=
  fun other live => follows other (live_setTape live).2

/-- A payload that is too large leaves the state as it is. -/
theorem follows_onstop_iff (follows : Follows r) (size : ℕ) :
    Follows (onstop r size).2 ↔ (size ≤ maxPayloadSize → Silent r) := by
  unfold onstop
  split
  · next large => exact iff_of_true follows fun small => absurd small (Nat.not_le_of_lt large)
  · next small =>
    simp only [Nat.le_of_not_lt small, true_implies]
    refine (follows_iff_silent (by simp)).trans ?_
    exact silent_congr (by simp)

theorem follows_stream_iff {call : ℕ} {acquired : Acquired} (follows : Follows r)
    (fresh : (r.tape r.tapes).live = false) :
    Follows (stream r call acquired).2 ↔
      (r.starts call = some .stream →
        Silent r ∧ acquired ≠ .recorderThrows ∧ acquired ≠ .monitoringThrows) := by
  unfold stream
  by_cases waits : r.starts call = some .stream
  · simp only [waits, true_implies]
    cases acquired with
    | refused e => exact (follows_iff_silent (by simp)).trans (iff_of_eq (by simp; rfl))
    | unsupported => exact (follows_iff_silent (by simp)).trans (iff_of_eq (by simp; rfl))
    | recorderThrows | monitoringThrows =>
      refine (follows_iff_silent (by simp)).trans ?_
      refine iff_of_false (fun silent => ?_) (by simp)
      exact silent_addTape (r.setStart call none) _ silent
    | recorder =>
      constructor
      · intro after
        refine ⟨fun id => ?_, by simp⟩
        by_cases same : id = r.tapes
        · subst same
          exact fresh
        · cases live : (r.tape id).live with
          | false => rfl
          | true =>
            have moved := after id (by simpa [Recorder.setTimeout, Recorder.addTape,
              Recorder.setStart, same] using live)
            exact absurd (State.recording.inj moved).symm same
      · rintro ⟨silent, -⟩ id live
        by_cases same : id = r.tapes
        · exact congrArg State.recording same.symm
        · have off := silent id
          simp [Recorder.setTimeout, Recorder.addTape, Recorder.setStart, same, off] at live
  · simpa only [if_neg waits] using iff_of_true follows (fun yes => absurd yes waits)

/-- The tapes that are to come do not run yet. -/
def Fresh (r : Recorder) : Prop := ∀ id, r.tapes ≤ id → (r.tape id).live = false

theorem follows_step_iff (follows : Follows r) (fresh : Fresh r) (e : Event) :
    Follows (step r e).2 ↔ Spares r e := by
  cases e with
  | start call =>
    refine iff_of_true ?_ trivial
    simp only [step, start]
    split
    · exact follows
    · split
      · next idle =>
        apply Silent.follows
        exact (follows_iff_silent (r := r) (by simp [idle])).mp follows
      · exact follows
  | permission call granted =>
    by_cases waits : r.starts call = some .permission
    · cases granted with
      | true =>
        refine iff_of_true ?_ trivial
        exact follows.congr (by simp [step, permission, waits, Recorder.setStart])
          (by simp [step, permission, waits, Recorder.setStart])
      | false =>
        simp only [step, permission, Spares, waits, true_implies]
        refine (follows_iff_silent (by simp)).trans ?_
        exact silent_congr rfl
    · have same : (step r (.permission call granted)).2 = r := by
        simp only [step, permission, if_neg waits]
      rw [same]
      cases granted with
      | true => exact iff_of_true follows trivial
      | false => exact iff_of_true follows fun yes => absurd yes waits
  | stream call acquired => exact follows_stream_iff follows (fresh _ (Nat.le_refl _))
  | stop => exact follows_stop_iff r
  | cancel =>
    refine iff_of_true ?_ trivial
    simp only [step, cancel]
    split
    · next tape recording =>
      apply Silent.follows
      have off : Silent (r.setTape tape ⟨false, false⟩) := follows.silent_setTape recording
      intro id
      simpa [Recorder.setTape] using off id
    · next other =>
      apply Silent.follows
      exact (follows_iff_silent fun id recording => other id recording).mp follows
  | timeout timer =>
    by_cases armed : r.armed timer = true
    · simp only [step, timeout, Spares, armed, true_implies]
      exact follows_stop_iff { r with armed := _ }
    · refine iff_of_true ?_ (fun yes => absurd yes armed)
      simpa only [step, timeout, if_neg armed] using follows
  | ends tape size =>
    refine iff_of_true ?_ trivial
    simp only [step, ends]
    split
    · next live =>
      have off : Silent (r.setTape tape ⟨false, false⟩) :=
        follows.silent_setTape (follows tape live)
      split
      · exact (follows_onstop_iff off.follows size).mpr fun _ => off
      · exact off.follows
    · exact follows
  | fails tape =>
    refine iff_of_true ?_ trivial
    simp only [step, fails]
    split
    · next live =>
      apply Silent.follows
      have off : Silent (r.setTape tape ⟨false, true⟩) :=
        follows.silent_setTape (follows tape live.1)
      intro id
      simpa [Recorder.setTape] using off id
    · exact follows
  | stops tape size =>
    simp only [step, stops, Spares]
    split
    · next due =>
      rw [follows_onstop_iff follows.setTape, silent_setTape_iff due.1]
      exact ⟨fun spares _ _ => spares, fun spares => spares due.1 due.2⟩
    · next early =>
      exact iff_of_true follows fun off due => absurd ⟨off, due⟩ early

/-- A tape that runs was running before, or is the next one. -/
theorem live_step {e : Event} {id : ℕ} (live : ((step r e).2.tape id).live = true) :
    (r.tape id).live = true ∨ id < (step r e).2.tapes := by
  cases e with
  | start call =>
    simp only [step, start] at live
    split at live
    · exact Or.inl live
    · split at live
      · exact Or.inl live
      · exact Or.inl live
  | permission call granted =>
    simp only [step, permission] at live
    split at live
    · cases granted with
      | true => exact Or.inl live
      | false => exact Or.inl live
    · exact Or.inl live
  | stream call acquired =>
    simp only [step, stream] at live ⊢
    split at live
    · next waits =>
      cases acquired with
      | refused e => exact Or.inl live
      | unsupported => exact Or.inl live
      | recorderThrows | monitoringThrows | recorder =>
        by_cases same : id = r.tapes
        · exact Or.inr (by simp [waits, same, Recorder.addTape, Recorder.setStart,
            Recorder.setTimeout])
        · exact Or.inl (by simpa [same, Recorder.addTape, Recorder.setStart,
            Recorder.setTimeout] using live)
    · exact Or.inl live
  | stop =>
    simp only [step, stop] at live
    split at live
    · exact Or.inl (by simpa using live)
    · exact Or.inl live
  | cancel =>
    simp only [step, cancel] at live
    split at live
    · exact Or.inl (by simpa using (live_setTape live).2)
    · exact Or.inl live
  | timeout timer =>
    simp only [step, timeout, stop] at live
    split at live
    · split at live
      · exact Or.inl (by simpa using live)
      · exact Or.inl live
    · exact Or.inl live
  | ends tape size =>
    simp only [step, ends] at live
    split at live
    · split at live
      · rw [(onstop_frame _ size).1] at live
        exact Or.inl (live_setTape live).2
      · exact Or.inl (live_setTape live).2
    · exact Or.inl live
  | fails tape =>
    simp only [step, fails] at live
    split at live
    · exact Or.inl (by simpa using (live_setTape live).2)
    · exact Or.inl live
  | stops tape size =>
    simp only [step, stops] at live
    split at live
    · rw [(onstop_frame _ size).1] at live
      exact Or.inl (live_setTape live).2
    · exact Or.inl live

theorem tapes_step (r : Recorder) (e : Event) : r.tapes ≤ (step r e).2.tapes := by
  cases e <;> simp only [step, start, permission, stream, stop, cancel, timeout, ends, fails,
    stops] <;> repeat' split
  all_goals simp [Recorder.setStart, Recorder.addTape, Recorder.setTimeout, Recorder.setTape,
    onstop_frame]

theorem fresh_step (fresh : Fresh r) (e : Event) : Fresh (step r e).2 := by
  intro id next
  cases live : ((step r e).2.tape id).live with
  | false => rfl
  | true =>
    rcases live_step live with before | known
    · rw [fresh id (Nat.le_trans (tapes_step r e) next)] at before
      cases before
    · omega

end

/-- In every run the microphone is in use for nothing but the recording at hand, exactly if no
recording is ever stopped, by hand or by the timer, no start resumes into one, no stop behind an
error comes into one, and neither a recorder nor what watches its level throws. -/
theorem recorder_microphone_iff (run : List Event) :
    (∀ front back, run = front ++ back → Follows (Mealy.final step atLoad front)) ↔
      Mealy.Along step Spares atLoad run := by
  have follows : Follows atLoad := fun _ live => by cases live
  have fresh : Fresh atLoad := fun _ _ => rfl
  apply Mealy.forall_final_iff_along_of _ _ follows fresh run
  · intro r e follows fresh
    exact follows_step_iff follows fresh e
  · intro r e _ fresh _
    exact fresh_step fresh e

/-- The tape runs, and no call knows of it. -/
structure Abandoned (r : Recorder) (id : ℕ) : Prop where
  live : (r.tape id).live = true
  unknown : r.state ≠ .recording id
  known : id < r.tapes

section

variable {r : Recorder}

theorem abandoned_stop (r : Recorder) {id : ℕ} (recording : r.state = .recording id)
    (live : (r.tape id).live = true) (known : id < r.tapes) : Abandoned (stop r).2 id := by
  simp only [stop, recording]
  exact ⟨by simpa using live, by simp, by simpa using known⟩

theorem live_of_setTape {id other : ℕ} {tape : Tape} (different : id ≠ other) :
    ((r.setTape other tape).tape id) = r.tape id := by
  simp [Recorder.setTape, different]

theorem abandoned_onstop {id : ℕ} (abandoned : Abandoned r id) (size : ℕ) :
    Abandoned (onstop r size).2 id := by
  obtain ⟨tape, tapes, same | idle⟩ := onstop_frame r size
  · exact ⟨by rw [tape, abandoned.live], by rw [same]; exact abandoned.unknown,
      by rw [tapes]; exact abandoned.known⟩
  · exact ⟨by rw [tape, abandoned.live], by simp [idle], by rw [tapes]; exact abandoned.known⟩

/-- No call, no timer and no other tape switches it off. -/
theorem abandoned_step {id : ℕ} (abandoned : Abandoned r id) {e : Event}
    (spared : ∀ size, e ≠ .ends id size) (sound : e ≠ .fails id) : Abandoned (step r e).2 id := by
  obtain ⟨live, unknown, known⟩ := abandoned
  cases e with
  | start call =>
    simp only [step, start]
    split
    · exact ⟨live, unknown, known⟩
    · split
      · exact ⟨live, by simp, known⟩
      · exact ⟨live, unknown, known⟩
  | permission call granted =>
    simp only [step, permission]
    split
    · cases granted with
      | true => exact ⟨live, unknown, known⟩
      | false => exact ⟨live, by simp, known⟩
    · exact ⟨live, unknown, known⟩
  | stream call acquired =>
    have other : id ≠ r.tapes := Nat.ne_of_lt known
    simp only [step, stream]
    split
    · cases acquired with
      | refused e => exact ⟨live, by simp, known⟩
      | unsupported => exact ⟨live, by simp, known⟩
      | recorderThrows | monitoringThrows =>
        refine ⟨?_, by simp, Nat.lt_succ_of_lt known⟩
        simpa [Recorder.addTape, Recorder.setStart, Recorder.setTimeout, other] using live
      | recorder =>
        refine ⟨?_, fun same => other (State.recording.inj same).symm, Nat.lt_succ_of_lt known⟩
        simpa [Recorder.addTape, Recorder.setStart, Recorder.setTimeout, other] using live
    · exact ⟨live, unknown, known⟩
  | stop =>
    simp only [step, stop]
    split
    · exact ⟨by simpa using live, by simp, by simpa using known⟩
    · exact ⟨live, unknown, known⟩
  | cancel =>
    simp only [step, cancel]
    split
    · next tape recording =>
      have other : id ≠ tape := by
        rintro rfl
        exact unknown recording
      exact ⟨by simpa [live_of_setTape other] using live, by simp,
        by simpa [Recorder.setTape] using known⟩
    · exact ⟨live, by simp, known⟩
  | timeout timer =>
    simp only [step, timeout, stop]
    split
    · split
      · exact ⟨by simpa using live, by simp, by simpa using known⟩
      · exact ⟨live, unknown, known⟩
    · exact ⟨live, unknown, known⟩
  | ends tape size =>
    have other : id ≠ tape := by
      rintro rfl
      exact spared size rfl
    simp only [step, ends]
    split
    · have off : Abandoned (r.setTape tape ⟨false, false⟩) id :=
        ⟨by simpa [live_of_setTape other] using live, unknown, known⟩
      split
      · exact abandoned_onstop off size
      · exact off
    · exact ⟨live, unknown, known⟩
  | fails tape =>
    have other : id ≠ tape := by
      rintro rfl
      exact sound rfl
    simp only [step, fails]
    split
    · exact ⟨by simpa [live_of_setTape other] using live, by simp,
        by simpa [Recorder.setTape] using known⟩
    · exact ⟨live, unknown, known⟩
  | stops tape size =>
    simp only [step, stops]
    split
    · next due =>
      have other : id ≠ tape := by
        rintro rfl
        rw [live] at due
        cases due.1
      have off : Abandoned (r.setTape tape ⟨false, false⟩) id :=
        ⟨by simpa [live_of_setTape other] using live, unknown, known⟩
      exact abandoned_onstop off size
    · exact ⟨live, unknown, known⟩

end

/-- Once a recording is stopped, by hand or by the timer, its microphone stays in use whatever
is called and however often, until its tracks end by themselves or its recorder fails. -/
theorem stopped_recording_stays {front later : List Event} {e : Event} {id : ℕ}
    (recording : (Mealy.final step atLoad front).state = .recording id)
    (live : ((Mealy.final step atLoad front).tape id).live = true)
    (stopped : e = .stop ∨ ∃ timer, e = .timeout timer ∧
      (Mealy.final step atLoad front).armed timer = true)
    (spared : ∀ e ∈ later, (∀ size, e ≠ .ends id size) ∧ e ≠ .fails id) :
    ((Mealy.final step atLoad (front ++ e :: later)).tape id).live = true := by
  have fresh : Fresh (Mealy.final step atLoad front) :=
    Mealy.final_preserved Fresh (fun _ e fresh => fresh_step fresh e) (fun _ _ => rfl) front
  have known : id < (Mealy.final step atLoad front).tapes := by
    by_contra unknown
    rw [fresh id (Nat.le_of_not_lt unknown)] at live
    cases live
  have first : Abandoned (step (Mealy.final step atLoad front) e).2 id := by
    rcases stopped with rfl | ⟨timer, rfl, armed⟩
    · exact abandoned_stop _ recording live known
    · simp only [step, timeout, if_pos armed]
      exact abandoned_stop { Mealy.final step atLoad front with armed := _ } recording live known
  have last : Abandoned (Mealy.final step (step (Mealy.final step atLoad front) e).2 later) id := by
    apply Mealy.final_invariant (fun r => Abandoned r id) _ first
    · exact (Mealy.along_mem _ later).mpr spared
    · exact fun _ e abandoned ok => abandoned_step abandoned ok.1 ok.2
  simpa only [Mealy.final_append, Mealy.final_cons] using last.live

/-- One recording that is sent, and then every other call. -/
def sentRecording : List Event := [.start 0, .permission 0 true, .stream 0 .recorder]

theorem stopped_recording_stays_sent :
    ((Mealy.final step atLoad
      (sentRecording ++ .stop :: [.cancel, .start 1, .permission 1 true])).tape 0).live = true :=
  stopped_recording_stays (by decide) (by decide) (Or.inl rfl) (by simp)

end VoiceRecorder
