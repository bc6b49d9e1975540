import AddMessenger.Mealy
import AddMessenger.Patterns
import AddMessenger.Turns

/-!
# The command queue of the desktop client

`queuedCommand` in `desktop-ui/electron/main.js`: each of the two queues is the promise of its
last call, and a call hangs its command on that promise with `then` and no handler for a
rejection. Calls, the ends of the commands, the timers and the reactions of the promises come in
any order.
-/

namespace CommandQueue

open Patterns Pattern Turns

abbrev Outcome := Except String String

/-- Where the callback of a call is: not called yet, at an attempt, between two attempts, or
its promise is settled. -/
inductive Phase where
  | waiting
  | running
  | pausing
  | settled (outcome : Outcome)
  deriving DecidableEq

/-- A call, with the outcomes of the attempts that have ended. -/
structure Call where
  args : List String
  input : Option String
  attempts : List Outcome
  phase : Phase
  deriving DecidableEq

def maxRetries : Nat := 3

/-- `String(err).toLowerCase()` -/
def lowered (err : String) : List Char := ("Error: " ++ err).toList.map Char.toLower

def includes (msg : List Char) (phrase : String) : Bool := (search (word phrase) msg).isSome

def isContention (err : String) : Bool :=
  includes (lowered err) "another add instance is already running" ||
    includes (lowered err) "already another instance is running"

/-- An attempt has ended: the promise settles, or there is another attempt after a pause. -/
def afterAttempt (attempt : Nat) : Outcome → Phase
  | .ok result => .settled (.ok result)
  | .error err =>
    if isContention err && decide (attempt < maxRetries) then .pausing
    else .settled (.error err)

def Call.attempted (c : Call) (outcome : Outcome) : Call :=
  { c with
    attempts := c.attempts ++ [outcome]
    phase := afterAttempt (c.attempts.length + 1) outcome }

/-- The promise on which a call hangs; the first one hangs on `Promise.resolve()`. -/
def promiseBefore (queue : List Call) : Nat → Phase
  | 0 => .settled (.ok "")
  | i + 1 => ((queue[i]?).map Call.phase).getD .waiting

/-- `then(callback)`: on a rejection the callback is passed over. -/
def Call.react (before : Phase) (c : Call) : Call :=
  match c.phase, before with
  | .waiting, .settled (.ok _) => { c with phase := .running }
  | .waiting, .settled (.error err) => { c with phase := .settled (.error err) }
  | _, _ => c

/-- What can happen to the call with this number in its queue. -/
inductive Turn where
  | reacts
  | ends (outcome : Outcome)
  | timerFires

def Call.take (before : Phase) (c : Call) : Turn → Call
  | .reacts => c.react before
  | .ends outcome => if c.phase = .running then c.attempted outcome else c
  | .timerFires => if c.phase = .pausing then { c with phase := .running } else c

structure State where
  cliQueue : List Call
  cliReadQueue : List Call

def atStart : State := ⟨[], []⟩

inductive Event where
  | queuedCommand (args : List String) (input : Option String)
  | turn (isRead : Bool) (i : Nat) (turn : Turn)

def State.queue (s : State) (isRead : Bool) : List Call :=
  if isRead then s.cliReadQueue else s.cliQueue

def State.withQueue (s : State) (isRead : Bool) (queue : List Call) : State :=
  if isRead then { s with cliReadQueue := queue } else { s with cliQueue := queue }

/-- The queue on which the event falls. -/
def Event.isRead : Event → Bool
  | .queuedCommand args _ => args.head? == some "read"
  | .turn isRead _ _ => isRead

/-- The command that is run, if one is. -/
def Call.started (before after : Call) : Option (List String × Option String) :=
  if before.phase ≠ .running ∧ after.phase = .running then some (after.args, after.input)
  else none

/-- A queue after an event, and the command that is run. -/
def advance (queue : List Call) : Event → Option (List String × Option String) × List Call
  | .queuedCommand args input => (none, queue ++ [⟨args, input, [], .waiting⟩])
  | .turn _ i turn =>
    match queue[i]? with
    | none => (none, queue)
    | some c =>
      let c' := c.take (promiseBefore queue i) turn
      (c.started c', queue.set i c')

def step (s : State) (e : Event) : Option (List String × Option String) × State :=
  let (command, queue) := advance (s.queue e.isRead) e
  (command, s.withQueue e.isRead queue)

def Call.Settled (c : Call) : Prop := ∃ outcome, c.phase = .settled outcome

def Call.Begun (c : Call) : Prop := c.phase ≠ .waiting

/-- The promise settles with the outcome of the last attempt, and there is one. -/
def Call.Own (c : Call) : Prop := ∀ outcome, c.phase = .settled outcome →
  c.attempts.getLast? = some outcome

/-- A call that waits has made no attempt. -/
def Call.Fresh (c : Call) : Prop := c.phase = .waiting → c.attempts = []

/-- The command does not get its turn from a rejection. -/
def Call.Unharmed (before : Phase) (c : Call) : Turn → Prop
  | .reacts => c.phase = .waiting → ∀ err, before ≠ .settled (.error err)
  | .ends _ | .timerFires => True

section

variable {c : Call} {before : Phase}

theorem Call.Settled.begun (settled : c.Settled) : c.Begun := by
  obtain ⟨outcome, phase⟩ := settled
  rw [Call.Begun, phase]
  exact nofun

theorem afterAttempt_ne_waiting (attempt : Nat) (outcome : Outcome) :
    afterAttempt attempt outcome ≠ .waiting := by
  cases outcome with
  | ok result => exact nofun
  | error err =>
    rw [afterAttempt]
    split <;> exact nofun

theorem eq_of_afterAttempt_settled {attempt : Nat} {outcome result : Outcome}
    (settled : afterAttempt attempt outcome = .settled result) : outcome = result := by
  cases outcome with
  | ok text =>
    cases settled
    rfl
  | error err =>
    rw [afterAttempt] at settled
    split at settled
    · cases settled
    · cases settled
      rfl

theorem attempted_own (c : Call) (outcome : Outcome) : (c.attempted outcome).Own := by
  intro result settled
  rw [← eq_of_afterAttempt_settled settled]
  exact List.getLast?_concat

/-- A promise settles once. -/
theorem take_settled (settled : c.Settled) (turn : Turn) : c.take before turn = c := by
  obtain ⟨outcome, phase⟩ := settled
  cases turn with
  | reacts => simp only [Call.take, Call.react, phase]
  | ends outcome => exact if_neg (by rw [phase]; exact nofun)
  | timerFires => exact if_neg (by rw [phase]; exact nofun)

theorem react_waiting_ok {result : String} (waits : c.phase = .waiting) :
    c.react (.settled (.ok result)) = { c with phase := .running } := by
  simp only [Call.react, waits]

theorem react_waiting_error {err : String} (waits : c.phase = .waiting) :
    c.react (.settled (.error err)) = { c with phase := .settled (.error err) } := by
  simp only [Call.react, waits]

/-- A call that waits only reacts. -/
theorem take_of_waits (waits : c.phase = .waiting) {turn : Turn} (other : turn ≠ .reacts) :
    c.take before turn = c := by
  cases turn with
  | reacts => exact absurd rfl other
  | ends outcome => exact if_neg (by rw [waits]; exact nofun)
  | timerFires => exact if_neg (by rw [waits]; exact nofun)

/-- A reaction changes a call only if it waits and the promise before it has settled. -/
theorem react_cases (before : Phase) (c : Call) :
    c.react before = c ∨
      c.phase = .waiting ∧
        ((∃ result, before = .settled (.ok result)) ∨ ∃ err, before = .settled (.error err)) := by
  cases waits : c.phase with
  | waiting =>
    cases before with
    | settled outcome =>
      cases outcome with
      | ok result => exact .inr ⟨rfl, .inl ⟨result, rfl⟩⟩
      | error err => exact .inr ⟨rfl, .inr ⟨err, rfl⟩⟩
    | waiting | running | pausing => exact .inl (by simp only [Call.react, waits])
  | running | pausing | settled outcome => exact .inl (by simp only [Call.react, waits])

theorem take_fresh (fresh : c.Fresh) (turn : Turn) : (c.take before turn).Fresh := by
  cases turn with
  | reacts =>
    rcases react_cases before c with same | ⟨waits, ⟨result, rfl⟩ | ⟨err, rfl⟩⟩
    · rw [Call.take, same]
      exact fresh
    · rw [Call.take, react_waiting_ok waits]
      exact nofun
    · rw [Call.take, react_waiting_error waits]
      exact nofun
  | ends outcome =>
    rw [Call.take]
    split
    · exact fun waits => absurd waits (afterAttempt_ne_waiting _ outcome)
    · exact fresh
  | timerFires =>
    rw [Call.take]
    split
    · exact nofun
    · exact fresh

/-- A call begins when the promise before it has settled. -/
theorem take_begun {turn : Turn} (begun : (c.take before turn).Begun) :
    c.Begun ∨ ∃ outcome, before = .settled outcome := by
  by_cases waits : c.phase = .waiting
  · cases turn with
    | reacts =>
      rcases react_cases before c with same | ⟨-, ⟨result, rfl⟩ | ⟨err, rfl⟩⟩
      · rw [Call.take, same] at begun
        exact .inl begun
      · exact .inr ⟨_, rfl⟩
      · exact .inr ⟨_, rfl⟩
    | ends | timerFires =>
      rw [take_of_waits waits (by simp)] at begun
      exact .inl begun
  · exact .inl waits

theorem take_own_iff (fresh : c.Fresh) (turn : Turn) :
    (c.take before turn).Own ↔ c.Own ∧ c.Unharmed before turn := by
  cases turn with
  | reacts =>
    rcases react_cases before c with same | ⟨waits, ⟨result, rfl⟩ | ⟨err, rfl⟩⟩
    · rw [Call.take, same]
      refine (and_iff_left fun waits err rejected => ?_).symm
      subst rejected
      rw [react_waiting_error waits] at same
      have phase : Phase.settled (.error err) = c.phase := congrArg Call.phase same
      rw [waits] at phase
      cases phase
    · rw [Call.take, react_waiting_ok waits]
      refine iff_of_true nofun ⟨fun outcome settled => ?_, fun _ err => nofun⟩
      rw [waits] at settled
      cases settled
    · rw [Call.take, react_waiting_error waits]
      refine iff_of_false (fun own => ?_) fun both => both.2 waits err rfl
      have last : c.attempts.getLast? = some (.error err) := own _ rfl
      rw [fresh waits] at last
      cases last
  | ends outcome =>
    rw [Call.take, Call.Unharmed, and_true]
    split
    · next runs =>
      refine iff_of_true (attempted_own c outcome) fun result settled => ?_
      rw [runs] at settled
      cases settled
    · exact Iff.rfl
  | timerFires =>
    rw [Call.take, Call.Unharmed, and_true]
    split
    · next pauses =>
      refine iff_of_true nofun fun result settled => ?_
      rw [pauses] at settled
      cases settled
    · exact Iff.rfl

theorem take_after_error {err : String} (fresh : c.Fresh) (waits : c.phase = .waiting)
    {turn : Turn} (begun : (c.take (.settled (.error err)) turn).Begun) :
    (c.take (.settled (.error err)) turn).phase = .settled (.error err) ∧
      (c.take (.settled (.error err)) turn).attempts = [] := by
  cases turn with
  | reacts =>
    rw [Call.take, react_waiting_error waits]
    exact ⟨rfl, fresh waits⟩
  | ends | timerFires =>
    rw [take_of_waits waits (by simp)] at begun
    exact absurd waits begun

end

section

variable {queue : List Call} {i : Nat}

/-- The invariant of a queue. -/
structure Sound (queue : List Call) : Prop where
  turns : InTurn Call.Settled Call.Begun queue
  fresh : ∀ c ∈ queue, c.Fresh

theorem itsTurn_of_promise (settled : ∃ outcome, promiseBefore queue i = .settled outcome) :
    ItsTurn Call.Settled queue i := by
  rintro p c rfl at_p
  obtain ⟨outcome, phase⟩ := settled
  rw [promiseBefore, at_p] at phase
  exact ⟨outcome, phase⟩

theorem promise_of_itsTurn {c : Call} (at_i : queue[i]? = some c)
    (turn : ItsTurn Call.Settled queue i) :
    ∃ outcome, promiseBefore queue i = .settled outcome := by
  cases i with
  | zero => exact ⟨_, rfl⟩
  | succ p =>
    have inside : p < queue.length := by
      have next := (List.getElem?_eq_some_iff.mp at_i).1
      omega
    have at_p := List.getElem?_eq_getElem inside
    obtain ⟨outcome, phase⟩ := turn p _ rfl at_p
    refine ⟨outcome, ?_⟩
    rw [promiseBefore, at_p]
    exact phase

theorem advance_sound (sound : Sound queue) (e : Event) : Sound (advance queue e).2 := by
  cases e with
  | queuedCommand args input =>
    refine ⟨sound.turns.concat fun begun => begun rfl, ?_⟩
    rw [advance, List.forall_mem_append, List.forall_mem_singleton]
    exact ⟨sound.fresh, fun _ => rfl⟩
  | turn isRead i turn =>
    rw [advance]
    split
    · exact sound
    · next c at_i =>
      have fresh := sound.fresh c (List.mem_of_getElem? at_i)
      constructor
      · refine sound.turns.set at_i (fun settled => ?_) fun begun => ?_
        · rwa [take_settled settled]
        · exact (take_begun begun).imp id itsTurn_of_promise
      · refine (forall_mem_set_iff (Q := True) at_i ?_).mpr ⟨sound.fresh, trivial⟩
        exact iff_of_true (take_fresh fresh turn) ⟨fresh, trivial⟩

/-- The event lets no command be passed over. -/
def Harmless (queue : List Call) : Event → Prop
  | .queuedCommand _ _ => True
  | .turn _ i turn => ∀ c, queue[i]? = some c → c.Unharmed (promiseBefore queue i) turn

theorem advance_own_iff (sound : Sound queue) (e : Event) :
    (∀ c ∈ (advance queue e).2, c.Own) ↔ (∀ c ∈ queue, c.Own) ∧ Harmless queue e := by
  cases e with
  | queuedCommand args input =>
    rw [advance, List.forall_mem_append, List.forall_mem_singleton]
    exact and_congr_right fun _ => iff_of_true nofun trivial
  | turn isRead i turn =>
    rw [advance, Harmless]
    split
    · next outside => exact (and_iff_left (by simp [outside])).symm
    · next c at_i =>
      rw [forall_mem_set_iff at_i (take_own_iff (sound.fresh c (List.mem_of_getElem? at_i)) turn)]
      simp only [at_i, Option.some.injEq, forall_eq']

/-- The commands run one after another, each promise settles with the outcome of its command's
last attempt, and until all have settled something is under way. -/
structure Unpoisoned (queue : List Call) : Prop where
  inOrder : ∀ (i j : Nat) (c d : Call), i < j → queue[i]? = some c → queue[j]? = some d →
    d.Begun → c.Settled
  own : ∀ c ∈ queue, c.Own
  moves : ∀ c ∈ queue, ¬ c.Settled → ∃ i d, queue[i]? = some d ∧
    (d.phase = .running ∨ d.phase = .pausing ∨
      d.phase = .waiting ∧ ∃ outcome, promiseBefore queue i = .settled outcome)

theorem Sound.unpoisoned_iff (sound : Sound queue) : Unpoisoned queue ↔ ∀ c ∈ queue, c.Own := by
  refine ⟨Unpoisoned.own, fun own => ⟨?_, own, ?_⟩⟩
  · intro i j c d before at_i at_j begun
    exact sound.turns.settled_of_lt (fun _ => Call.Settled.begun) before at_i at_j begun
  · intro c member unsettled
    obtain ⟨i, d, at_i, open_d, turn⟩ := exists_its_turn member unsettled
    refine ⟨i, d, at_i, ?_⟩
    cases phase : d.phase with
    | waiting => exact .inr (.inr ⟨rfl, promise_of_itsTurn at_i turn⟩)
    | running => exact .inl rfl
    | pausing => exact .inr (.inl rfl)
    | settled outcome => exact absurd ⟨outcome, phase⟩ open_d

/-- The call after one that has failed is not run, and fails with the same error. -/
def Spreads (queue : List Call) : Prop :=
  ∀ (i : Nat) (c d : Call) (err : String), queue[i]? = some c → queue[i + 1]? = some d →
    c.phase = .settled (.error err) → d.Begun →
      d.phase = .settled (.error err) ∧ d.attempts = []

theorem advance_spreads (sound : Sound queue) (spreads : Spreads queue) (e : Event) :
    Spreads (advance queue e).2 := by
  cases e with
  | queuedCommand args input =>
    intro i c d err at_i at_j failed begun
    rw [advance] at at_i at_j
    have size := (List.getElem?_eq_some_iff.mp at_j).1
    rw [List.length_append, List.length_singleton] at size
    rw [List.getElem?_append_left (by omega)] at at_i
    rcases Nat.lt_succ_iff_lt_or_eq.mp size with old | last
    · rw [List.getElem?_append_left old] at at_j
      exact spreads i c d err at_i at_j failed begun
    · rw [last, List.getElem?_concat_length] at at_j
      cases at_j
      exact absurd rfl begun
  | turn isRead k turn =>
    rw [advance]
    split
    · exact spreads
    · next c₀ at_k =>
      have inside := (List.getElem?_eq_some_iff.mp at_k).1
      have fresh := sound.fresh c₀ (List.mem_of_getElem? at_k)
      intro i c d err at_i at_j failed begun
      by_cases first : k = i
      · subst first
        rw [List.getElem?_set_ne (by omega)] at at_j
        rw [List.getElem?_set_self inside] at at_i
        cases at_i
        have settled : c₀.Settled := sound.turns (k + 1) d at_j begun k c₀ rfl at_k
        rw [take_settled settled] at failed
        exact spreads k c₀ d err at_k at_j failed begun
      · rw [List.getElem?_set_ne first] at at_i
        by_cases second : k = i + 1
        · subst second
          rw [List.getElem?_set_self inside] at at_j
          cases at_j
          have before : promiseBefore queue (i + 1) = .settled (.error err) := by
            rw [promiseBefore, at_i]
            exact failed
          by_cases waits : c₀.phase = .waiting
          · rw [before] at begun ⊢
            exact take_after_error fresh waits begun
          · have same := spreads i c c₀ err at_i at_k failed waits
            rw [take_settled ⟨_, same.1⟩]
            exact same
        · rw [List.getElem?_set_ne second] at at_j
          exact spreads i c d err at_i at_j failed begun

end

@[simp] theorem withQueue_queue (s : State) (isRead : Bool) (queue : List Call) :
    (s.withQueue isRead queue).queue isRead = queue := by
  cases isRead <;> rfl

theorem withQueue_other (s : State) {isRead other : Bool} (differ : other ≠ isRead)
    (queue : List Call) : (s.withQueue isRead queue).queue other = s.queue other := by
  cases isRead <;> cases other <;> first | rfl | exact absurd rfl differ

/-- What holds of both queues after a step. -/
theorem forall_queue_step_iff {P : List Call → Prop} {Q : Prop} {s : State} {e : Event}
    (one : P (advance (s.queue e.isRead) e).2 ↔ P (s.queue e.isRead) ∧ Q) :
    (∀ isRead, P ((step s e).2.queue isRead)) ↔ (∀ isRead, P (s.queue isRead)) ∧ Q := by
  have same : (step s e).2.queue e.isRead = (advance (s.queue e.isRead) e).2 := withQueue_queue ..
  have other : (step s e).2.queue (!e.isRead) = s.queue (!e.isRead) :=
    withQueue_other s (by cases e.isRead <;> decide) _
  have both : ∀ R : Bool → Prop, (∀ isRead, R isRead) ↔ R e.isRead ∧ R (!e.isRead) := by
    intro R
    cases e.isRead <;> simp [Bool.forall_bool, and_comm]
  rw [both, both fun isRead => P (s.queue isRead), same, other, one]
  exact and_right_comm

def Kept (s : State) : Prop := ∀ isRead, Unpoisoned (s.queue isRead)

/-- The event does not give a command its turn when the promise before it was rejected. -/
def Spares (s : State) (e : Event) : Prop := Harmless (s.queue e.isRead) e

theorem step_sound (s : State) (e : Event) (sound : ∀ isRead, Sound (s.queue isRead)) :
    ∀ isRead, Sound ((step s e).2.queue isRead) := by
  refine (forall_queue_step_iff (Q := True) ?_).mpr ⟨sound, trivial⟩
  exact iff_of_true (advance_sound (sound _) e) ⟨sound _, trivial⟩

/-- The queues are kept exactly in the runs in which no command gets its turn from a failure. -/
theorem kept_iff_spares (run : List Event) :
    Kept (Mealy.final step atStart run) ↔ Mealy.Along step Spares atStart run := by
  have begins : ∀ isRead, Sound (atStart.queue isRead) := by
    intro isRead
    cases isRead <;> exact ⟨inTurn_nil, nofun⟩
  have one : ∀ s e, (∀ isRead, Sound (s.queue isRead)) →
      (Kept (step s e).2 ↔ Kept s ∧ Spares s e) := by
    intro s e sound
    refine forall_queue_step_iff ?_
    rw [(advance_sound (sound _) e).unpoisoned_iff, (sound _).unpoisoned_iff]
    exact advance_own_iff (sound _) e
  have along := Mealy.final_iff_along _ step_sound one begins run
  refine along.trans (and_iff_right fun isRead => (begins isRead).unpoisoned_iff.mpr ?_)
  cases isRead <;> exact nofun

/-- After one failure every call of the queue that settles does so with that error, and its
command is never run. -/
theorem failure_spreads (run : List Event) (isRead : Bool) {i j : Nat} (before : i < j)
    {c d : Call} {err : String}
    (at_i : ((Mealy.final step atStart run).queue isRead)[i]? = some c)
    (at_j : ((Mealy.final step atStart run).queue isRead)[j]? = some d)
    (failed : c.phase = .settled (.error err)) (begun : d.Begun) :
    d.phase = .settled (.error err) ∧ d.attempts = [] := by
  have reached : ∀ isRead, Sound ((Mealy.final step atStart run).queue isRead) ∧
      Spreads ((Mealy.final step atStart run).queue isRead) := by
    refine Mealy.final_preserved (fun s : State => ∀ isRead, Sound (s.queue isRead) ∧
      Spreads (s.queue isRead)) ?_ ?_ run
    · intro s e held
      refine (forall_queue_step_iff (P := fun q => Sound q ∧ Spreads q) (Q := True) ?_).mpr
        ⟨held, trivial⟩
      obtain ⟨sound, spreads⟩ := held e.isRead
      exact iff_of_true ⟨advance_sound sound e, advance_spreads sound spreads e⟩
        ⟨⟨sound, spreads⟩, trivial⟩
    · intro isRead
      cases isRead <;> exact ⟨⟨inTurn_nil, nofun⟩, nofun⟩
  obtain ⟨sound, spreads⟩ := reached isRead
  obtain ⟨k, rfl⟩ := Nat.exists_eq_add_of_lt before
  clear before
  induction k generalizing d with
  | zero => exact spreads i c d err at_i at_j failed begun
  | succ k ih =>
    have inside : i + k + 1 < ((Mealy.final step atStart run).queue isRead).length := by
      have last := (List.getElem?_eq_some_iff.mp at_j).1
      omega
    have at_k := List.getElem?_eq_getElem inside
    have earlier : Call.Settled _ := sound.turns _ d at_j begun (i + k + 1) _ rfl at_k
    exact spreads _ _ d err at_k at_j (ih earlier.begun at_k).1 begun

/-- The first command fails, and the second one is called afterwards. -/
def failedThenId : List Event :=
  [.queuedCommand ["unlock"] none, .turn false 0 .reacts, .turn false 0 (.ends (.error "wrong")),
    .queuedCommand ["id"] none, .turn false 1 .reacts]

/-- The second command is not run, and its promise is rejected with the error of the first. -/
theorem id_fails_after_unlock :
    ¬ Kept (Mealy.final step atStart failedThenId) ∧
      (Mealy.final step atStart failedThenId).cliQueue =
        [⟨["unlock"], none, [.error "wrong"], .settled (.error "wrong")⟩,
          ⟨["id"], none, [], .settled (.error "wrong")⟩] ∧
      Mealy.outputs step atStart failedThenId =
        [none, some (["unlock"], none), none, none, none] := by
  have queue : (Mealy.final step atStart failedThenId).cliQueue =
      [⟨["unlock"], none, [.error "wrong"], .settled (.error "wrong")⟩,
        ⟨["id"], none, [], .settled (.error "wrong")⟩] := by decide +kernel
  refine ⟨fun kept => ?_, queue, by decide +kernel⟩
  have own := (kept false).own
  change ∀ c ∈ (Mealy.final step atStart failedThenId).cliQueue, c.Own at own
  rw [queue] at own
  have last := own _ (List.mem_cons_of_mem _ List.mem_cons_self) _ rfl
  cases last

end CommandQueue
