import AddMessenger.ByteStrings
import AddMessenger.Mealy

/-!
# The log of scanners and its rotation

`BotLogger` of `dht-core/src/bot_log.rs`. A file is the list of its lines. The calls do not
overlap; the system may fail to measure, rename, truncate or open a file, and the code goes on.
-/

namespace BotLog

open ByteStrings

def maxLogFileSize : ℕ := 10 * 1024 * 1024

abbrev LogFile : Type := List String

/-- Every line ends in a newline. -/
def size (file : LogFile) : ℕ := (file.map fun line => (asBytes line).length + 1).sum

/-- The log and its rotated files, `.1` to `.3`. -/
structure Logs where
  current : Option LogFile
  first : Option LogFile
  second : Option LogFile
  third : Option LogFile

/-- What the system lets a call do. -/
structure Outcome where
  measured : Bool
  renamed : ℕ → Bool
  truncated : Bool
  opened : Bool

/-- A call, with the time as `%Y-%m-%dT%H:%M:%S%z` writes it. -/
structure Call where
  ts : String
  peerIp : String
  peerPort : UInt16
  reason : String
  detail : Option String
  outcome : Outcome

/-- The colon in the offset of the time zone. -/
def withColon (ts : String) : String :=
  if 5 < (asBytes ts).length then
    String.ofList (ts.toList.take (ts.toList.length - 2)) ++ ":" ++
      String.ofList (ts.toList.drop (ts.toList.length - 2))
  else ts

def Call.line (call : Call) : String :=
  let detailStr := (call.detail.map fun d => " (" ++ d ++ ")").getD ""
  withColon call.ts ++ " " ++ call.peerIp ++ ":" ++ toString call.peerPort ++ detailStr ++ " " ++
    call.reason

/-- Both files after `rename`, the old name before the new one. -/
def rename (ok : Bool) (source target : Option LogFile) : Option LogFile × Option LogFile :=
  match source with
  | some file => if ok then (none, some file) else (source, target)
  | none => (none, target)

def Logs.renameSecond (s : Logs) (ok : Bool) : Logs :=
  let (second, third) := rename ok s.second s.third
  { s with second, third }

def Logs.renameFirst (s : Logs) (ok : Bool) : Logs :=
  let (first, second) := rename ok s.first s.second
  { s with first, second }

def Logs.renameCurrent (s : Logs) (ok : Bool) : Logs :=
  let (current, first) := rename ok s.current s.first
  { s with current, first }

def Logs.truncate (s : Logs) (ok : Bool) : Logs :=
  if ok then { s with current := some [] } else s

/-- The loop goes from the oldest name to the newest. -/
def rotateIfNeeded (s : Logs) (o : Outcome) : Logs :=
  match s.current with
  | none => s
  | some file =>
    if !o.measured || size file < maxLogFileSize then s
    else
      (((s.renameSecond (o.renamed 3)).renameFirst (o.renamed 2)).renameCurrent
        (o.renamed 1)).truncate o.truncated

/-- Whether the line was written, and the files. -/
def log (s : Logs) (call : Call) : Bool × Logs :=
  let s := rotateIfNeeded s call.outcome
  if call.outcome.opened then (true, { s with current := some (s.current.getD [] ++ [call.line]) })
  else (false, s)

def absent : Logs := ⟨none, none, none, none⟩

/-- All lines that are left, the oldest first. -/
def Logs.lines (s : Logs) : List String :=
  s.third.getD [] ++ s.second.getD [] ++ s.first.getD [] ++ s.current.getD []

/-- The lines that the calls of a run wrote. -/
def written (run : List Call) : List String :=
  (run.filter fun call => call.outcome.opened).map Call.line

/-- No rename fails. -/
def Outcome.renames (o : Outcome) : Prop := ∀ i, o.renamed i = true

/-- A log that has grown too large is measured, and moved or truncated. -/
def Outcome.shrinks (o : Outcome) : Prop :=
  o.measured = true ∧ (o.renamed 1 = true ∨ o.truncated = true)

def Bounded (most : ℕ) (s : Logs) : Prop :=
  size (s.current.getD []) ≤ most ∧ size (s.first.getD []) ≤ most ∧
    size (s.second.getD []) ≤ most ∧ size (s.third.getD []) ≤ most

/-- What is left of a run. -/
structure Keeps (run : List Call) : Prop where
  ordered : (Mealy.final log absent run).lines.Sublist (written run)
  recent : (∀ call ∈ run, call.outcome.renames) →
    (Mealy.final log absent run).lines <:+ written run
  bounded : ∀ longest, (∀ call ∈ run, (asBytes call.line).length ≤ longest) →
    (∀ call ∈ run, call.outcome.shrinks) →
    Bounded (maxLogFileSize + longest) (Mealy.final log absent run)

theorem rename_sublist (ok : Bool) (source target : Option LogFile) :
    ((rename ok source target).2.getD [] ++ (rename ok source target).1.getD []).Sublist
      (target.getD [] ++ source.getD []) := by
  cases source with
  | none => exact List.Sublist.refl _
  | some file =>
    cases ok with
    | false => exact List.Sublist.refl _
    | true => simp [rename]

/-- A rename that does not fail loses only what was under the new name. -/
theorem rename_suffix (source target : Option LogFile) :
    ((rename true source target).2.getD [] ++ (rename true source target).1.getD []) <:+
      (target.getD [] ++ source.getD []) := by
  cases source with
  | none => exact List.suffix_refl _
  | some file => simp [rename]

/-- A rename that does not fail leaves nothing under the old name. -/
theorem rename_source (source target : Option LogFile) : (rename true source target).1 = none := by
  cases source <;> rfl

section

variable {s : Logs} {o : Outcome}

theorem renameSecond_sublist (s : Logs) (ok : Bool) :
    (s.renameSecond ok).lines.Sublist s.lines := by
  have moved := rename_sublist ok s.second s.third
  exact (moved.append_right (s.first.getD [])).append_right (s.current.getD [])

theorem renameFirst_sublist (s : Logs) (ok : Bool) :
    (s.renameFirst ok).lines.Sublist s.lines := by
  have moved := rename_sublist ok s.first s.second
  have beside := (moved.append_left (s.third.getD [])).append_right (s.current.getD [])
  simpa only [Logs.lines, Logs.renameFirst, List.append_assoc] using beside

theorem renameCurrent_sublist (s : Logs) (ok : Bool) :
    (s.renameCurrent ok).lines.Sublist s.lines := by
  have moved := rename_sublist ok s.current s.first
  have beside := moved.append_left (s.third.getD [] ++ s.second.getD [])
  simpa only [Logs.lines, Logs.renameCurrent, List.append_assoc] using beside

theorem truncate_sublist (s : Logs) (ok : Bool) : (s.truncate ok).lines.Sublist s.lines := by
  cases ok with
  | false => exact List.Sublist.refl _
  | true => simp [Logs.truncate, Logs.lines]

/-- Whatever fails, a rotation loses lines and moves none past another. -/
theorem rotate_sublist (s : Logs) (o : Outcome) : (rotateIfNeeded s o).lines.Sublist s.lines := by
  unfold rotateIfNeeded
  split
  · exact List.Sublist.refl _
  · split
    · exact List.Sublist.refl _
    · apply (truncate_sublist _ _).trans
      apply (renameCurrent_sublist _ _).trans
      apply (renameFirst_sublist _ _).trans
      exact renameSecond_sublist s _

/-- A rename to a free name loses nothing. -/
theorem renameFirst_free (free : s.second = none) : (s.renameFirst true).lines = s.lines := by
  cases first : s.first <;> simp [Logs.renameFirst, Logs.lines, rename, first, free]

theorem renameCurrent_free (free : s.first = none) : (s.renameCurrent true).lines = s.lines := by
  cases current : s.current <;> simp [Logs.renameCurrent, Logs.lines, rename, current, free]

/-- There is nothing left to be truncated. -/
theorem truncate_renameCurrent (s : Logs) (ok : Bool) :
    ((s.renameCurrent true).truncate ok).lines = (s.renameCurrent true).lines := by
  have moved : (s.renameCurrent true).current = none := rename_source _ _
  cases ok with
  | false => rfl
  | true => simp [Logs.truncate, Logs.lines, moved]

theorem renameSecond_suffix (s : Logs) : (s.renameSecond true).lines <:+ s.lines := by
  obtain ⟨lost, whole⟩ := rename_suffix s.second s.third
  refine ⟨lost, ?_⟩
  simp only [Logs.lines, Logs.renameSecond, ← List.append_assoc] at whole ⊢
  rw [whole]

/-- Where no rename fails it loses the oldest lines. -/
theorem rotate_suffix (s : Logs) (renames : o.renames) :
    (rotateIfNeeded s o).lines <:+ s.lines := by
  unfold rotateIfNeeded
  split
  · exact List.suffix_refl _
  · split
    · exact List.suffix_refl _
    · simp only [renames 1, renames 2, renames 3]
      have second : (s.renameSecond true).second = none := rename_source _ _
      have first : ((s.renameSecond true).renameFirst true).first = none := rename_source _ _
      rw [truncate_renameCurrent, renameCurrent_free first, renameFirst_free second]
      exact renameSecond_suffix s

theorem log_lines (s : Logs) (call : Call) :
    (log s call).2.lines = (rotateIfNeeded s call.outcome).lines ++ written [call] := by
  unfold log
  cases opened : call.outcome.opened with
  | false => simp [written, opened]
  | true => simp [written, opened, Logs.lines]

theorem written_cons (call : Call) (rest : List Call) :
    written (call :: rest) = written [call] ++ written rest := by
  simp only [written, ← List.map_append, ← List.filter_append, List.singleton_append]

/-- The induction is on the calls, with the lines that are there before them. -/
theorem final_sublist (s : Logs) (run : List Call) :
    (Mealy.final log s run).lines.Sublist (s.lines ++ written run) := by
  induction run generalizing s with
  | nil => simp [written]
  | cons call rest ih =>
    apply (ih (log s call).2).trans
    rw [log_lines, written_cons call rest, List.append_assoc]
    exact (rotate_sublist s call.outcome).append_right _

theorem final_suffix (s : Logs) {run : List Call} (renames : ∀ call ∈ run, call.outcome.renames) :
    (Mealy.final log s run).lines <:+ s.lines ++ written run := by
  induction run generalizing s with
  | nil => simp [written]
  | cons call rest ih =>
    obtain ⟨here, later⟩ := List.forall_mem_cons.mp renames
    obtain ⟨lost, whole⟩ := ih (log s call).2 later
    obtain ⟨older, rotated⟩ := rotate_suffix s here
    refine ⟨older ++ lost, ?_⟩
    rw [List.append_assoc, Mealy.final_cons, whole, log_lines, written_cons call rest, ← rotated]
    simp only [List.append_assoc]

end

section

variable {s : Logs} {o : Outcome} {most : ℕ}

theorem size_append (file : LogFile) (line : String) :
    size (file ++ [line]) = size file + ((asBytes line).length + 1) := by
  simp [size]

theorem rename_size (ok : Bool) {source target : Option LogFile}
    (small : size (source.getD []) ≤ most) (below : size (target.getD []) ≤ most) :
    size ((rename ok source target).1.getD []) ≤ most ∧
      size ((rename ok source target).2.getD []) ≤ most := by
  cases source with
  | none => exact ⟨small, below⟩
  | some file =>
    cases ok with
    | false => exact ⟨small, below⟩
    | true => exact ⟨Nat.zero_le most, small⟩

theorem renameSecond_bounded (bounded : Bounded most s) (ok : Bool) :
    Bounded most (s.renameSecond ok) := by
  obtain ⟨current, first, second, third⟩ := bounded
  have moved := rename_size ok second third
  exact ⟨current, first, moved.1, moved.2⟩

theorem renameFirst_bounded (bounded : Bounded most s) (ok : Bool) :
    Bounded most (s.renameFirst ok) := by
  obtain ⟨current, first, second, third⟩ := bounded
  have moved := rename_size ok first second
  exact ⟨current, moved.1, moved.2, third⟩

theorem renameCurrent_bounded (bounded : Bounded most s) (ok : Bool) :
    Bounded most (s.renameCurrent ok) := by
  obtain ⟨current, first, second, third⟩ := bounded
  have moved := rename_size ok current first
  exact ⟨moved.1, moved.2, second, third⟩

theorem truncate_bounded (bounded : Bounded most s) (ok : Bool) : Bounded most (s.truncate ok) := by
  cases ok with
  | false => exact bounded
  | true => exact ⟨Nat.zero_le most, bounded.2⟩

/-- After a rotation that shrinks the log there is room for a line. -/
theorem rotate_bounded (bounded : Bounded most s) (shrinks : o.shrinks) :
    Bounded most (rotateIfNeeded s o) ∧
      size ((rotateIfNeeded s o).current.getD []) < maxLogFileSize := by
  unfold rotateIfNeeded
  split
  · next gone => exact ⟨bounded, by simp [gone, size, maxLogFileSize]⟩
  · next file here =>
    split
    · next small =>
      simp only [shrinks.1, Bool.not_true, Bool.false_or, decide_eq_true_eq] at small
      exact ⟨bounded, by simpa only [here, Option.getD_some] using small⟩
    · refine ⟨?_, ?_⟩
      · apply truncate_bounded
        apply renameCurrent_bounded
        apply renameFirst_bounded
        exact renameSecond_bounded bounded _
      · rcases shrinks.2 with moved | truncated
        · rw [moved]
          have gone : ∀ t : Logs, (t.renameCurrent true).current = none :=
            fun t => rename_source _ _
          cases o.truncated with
          | false => simp [Logs.truncate, gone, size, maxLogFileSize]
          | true => simp [Logs.truncate, size, maxLogFileSize]
        · simp [truncated, Logs.truncate, size, maxLogFileSize]

theorem log_bounded {call : Call} {longest : ℕ} (bounded : Bounded (maxLogFileSize + longest) s)
    (fits : (asBytes call.line).length ≤ longest) (shrinks : call.outcome.shrinks) :
    Bounded (maxLogFileSize + longest) (log s call).2 := by
  obtain ⟨rotated, room⟩ := rotate_bounded bounded shrinks
  unfold log
  cases call.outcome.opened with
  | false => exact rotated
  | true =>
    refine ⟨?_, rotated.2⟩
    simp only [if_true, Option.getD_some, size_append]
    omega

end

/-- In every run of calls, one after the other, the lines that are left stand in the order in which
they were written; where no rename fails they are the last ones, without a gap; and where a log
that is too large can be moved or truncated, no file outgrows the limit by more than a line. -/
theorem log_keeps (run : List Call) : Keeps run where
  ordered := final_sublist absent run
  recent := final_suffix absent
  bounded longest fits shrinks := by
    have start : Bounded (maxLogFileSize + longest) absent :=
      ⟨Nat.zero_le _, Nat.zero_le _, Nat.zero_le _, Nat.zero_le _⟩
    have meets : Mealy.Along log (fun _ call => (asBytes call.line).length ≤ longest ∧
        call.outcome.shrinks) absent run :=
      (Mealy.along_mem _ run).mpr fun call member => ⟨fits call member, shrinks call member⟩
    exact Mealy.final_invariant (Bounded (maxLogFileSize + longest))
      (fun s call bounded ok => log_bounded bounded ok.1 ok.2) start meets

end BotLog
