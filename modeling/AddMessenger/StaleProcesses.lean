import AddMessenger.CliOutput

/-!
# Reaping stale processes

`isRustAddCli` and `reapStaleAddProcesses` of `desktop-ui/electron/main.js`: the two pid files,
the list that `pgrep` prints and the process table are arguments; the table does not change
while the function runs. A pid is an integer, as every pid is exact in a double.
-/

namespace StaleProcesses

open CliOutput

/-- An entry of the process table: the program it runs, what `/proc` shows of it if it can be
read, and whether this user may send it signals. -/
structure Process where
  exe : String
  comm : Option String
  cmdline : Option String
  signalable : Bool

/-- `split('/').pop()` -/
def baseName (path : List Char) : List Char := (path.splitOn '/').getLastD []

inductive PidFile where
  | absent
  | unreadable
  | text (content : String)

structure World where
  self : ℤ
  listenProcess : Option ℤ
  appPidFile : PidFile
  listenPidFile : PidFile
  /-- what `pgrep` prints -/
  pgrep : String
  process : ℤ → Option Process
  positive : ∀ pid p, process pid = some p → 0 < pid

def isWord (c : Char) : Bool := c.isAlphanum || c = '_'

def wordAdd : List Char := ['a', 'd', 'd']

def wordListen : List Char := ['l', 'i', 's', 't', 'e', 'n']

/-- `(\s+listen)?$` -/
def endsCommand (rest : List Char) : Bool :=
  rest.isEmpty || (!(rest.takeWhile isSpace).isEmpty && rest.dropWhile isSpace == wordListen)

/-- `/\badd(\s+listen)?$/` from a place on, behind a character or at the start. -/
def endsInAdd : Option Char → List Char → Bool
  | _, [] => false
  | before, c :: rest =>
    (!before.any isWord && wordAdd.isPrefixOf (c :: rest) && endsCommand ((c :: rest).drop 3)) ||
      endsInAdd (some c) rest

/-- The arguments, joined by blanks. -/
def commandLine (raw : String) : List Char :=
  jsTrim (List.intercalate [' '] ((raw.toList.splitOn (Char.ofNat 0)).filter (· ≠ [])))

def firstName (cmdline : List Char) : List Char :=
  baseName (cmdline.takeWhile fun c => !isSpace c)

def slowPath (p : Process) : Bool :=
  match p.cmdline with
  | none => false
  | some raw =>
    let cmdline := commandLine raw
    if firstName cmdline = "add-desktop".toList then false
    else if firstName cmdline = wordAdd then true
    else endsInAdd none cmdline

def isRustAddCli (w : World) (pid : ℤ) : Bool :=
  if pid = w.self then false
  else if w.listenProcess = some pid then false
  else
    match w.process pid with
    | none => false
    | some p =>
      match p.comm with
      | none => slowPath p
      | some text =>
        let comm := jsTrim text.toList
        if comm = wordAdd then true
        else if comm = "add-desktop".toList then false
        else if wordAdd.isPrefixOf comm then false
        else slowPath p

/-- `parseInt(text, 10)`; `none` is `NaN`. -/
def parseInt (text : List Char) : Option ℤ :=
  let unspaced := text.dropWhile isSpace
  let signed := unspaced.head? = some '+' ∨ unspaced.head? = some '-'
  let digits := (if signed then unspaced.tail else unspaced).takeWhile Char.isDigit
  if digits = [] then none
  else if unspaced.head? = some '-' then some (-(Nat.ofDigitChars 10 digits 0 : ℤ))
  else some (Nat.ofDigitChars 10 digits 0)

def alive (w : World) (pid : ℤ) : Bool := (w.process pid).any Process.signalable

/-- The pid that is sent SIGTERM, and whether the file is removed. -/
def reapFile (w : World) : PidFile → List ℤ × Bool
  | .absent => ([], false)
  | .unreadable => ([], false)
  | .text content =>
    match parseInt (jsTrim content.toList) with
    | none => ([], true)
    | some pid =>
      if pid ≤ 0 then ([], true)
      else if !alive w pid then ([], true)
      else (if isRustAddCli w pid then [pid] else [], true)

/-- The pids that `pgrep` has printed. -/
def pgrepPids (out : String) : List ℤ :=
  (((jsTrim out.toList).splitOnP isSpace).filter (· ≠ [])).filterMap parseInt

/-- The pids that are sent SIGTERM, and whether the two files are removed. -/
def reapStaleAddProcesses (w : World) : List ℤ × Bool × Bool :=
  let app := reapFile w w.appPidFile
  let listen := reapFile w w.listenPidFile
  let orphans := (pgrepPids w.pgrep).filter fun pid => isRustAddCli w pid && alive w pid
  (app.1 ++ listen.1 ++ orphans, app.2, listen.2)

/-- The text ends in the word `add` or in `add listen`. -/
def EndsInAdd (text : List Char) : Prop :=
  ∃ front back, text = front ++ (wordAdd ++ back) ∧
    (∀ c ∈ front.getLast?, isWord c = false) ∧
    (back = [] ∨ ∃ spaces, spaces ≠ [] ∧ (∀ c ∈ spaces, isSpace c = true) ∧
      back = spaces ++ wordListen)

/-- The command line starts with a program named `add`, or it does not start with
`add-desktop` and ends in the word `add` or in `add listen`. -/
def CommandLineLooks (p : Process) : Prop :=
  ∃ raw, p.cmdline = some raw ∧
    (firstName (commandLine raw) = wordAdd ∨
      firstName (commandLine raw) ≠ "add-desktop".toList ∧ EndsInAdd (commandLine raw))

/-- The name is `add`; or it is hidden or starts otherwise, and the command line looks so. -/
def Looks (p : Process) : Prop :=
  (∃ comm, p.comm = some comm ∧ jsTrim comm.toList = wordAdd) ∨
    (∀ comm, p.comm = some comm → ¬ wordAdd <+: jsTrim comm.toList) ∧ CommandLineLooks p

/-- A pid file or `pgrep` names the process. -/
def Named (w : World) (pid : ℤ) : Prop :=
  (∃ content, (w.appPidFile = .text content ∨ w.listenPidFile = .text content) ∧
    parseInt (jsTrim content.toList) = some pid) ∨ pid ∈ pgrepPids w.pgrep

/-- The executable's base name is `add`. -/
def RunsAdd (p : Process) : Prop := baseName p.exe.toList = wordAdd

instance (p : Process) : Decidable (RunsAdd p) :=
  inferInstanceAs (Decidable (baseName p.exe.toList = wordAdd))

theorem endsCommand_iff (rest : List Char) : endsCommand rest = true ↔
    rest = [] ∨ ∃ spaces, spaces ≠ [] ∧ (∀ c ∈ spaces, isSpace c = true) ∧
      rest = spaces ++ wordListen := by
  rw [endsCommand, Bool.or_eq_true, List.isEmpty_iff]
  refine or_congr_right ⟨?_, ?_⟩
  · intro both
    obtain ⟨some, listen⟩ := (Bool.and_eq_true _ _).mp both
    refine ⟨rest.takeWhile isSpace, by simpa using some, fun c => List.mem_takeWhile_imp, ?_⟩
    rw [← eq_of_beq listen, List.takeWhile_append_dropWhile]
  · rintro ⟨spaces, some, all, rfl⟩
    have front : (spaces ++ wordListen).takeWhile isSpace = spaces := by
      rw [List.takeWhile_append_of_pos all]
      simp [wordListen, isSpace]
    have back : (spaces ++ wordListen).dropWhile isSpace = wordListen := by
      rw [List.dropWhile_append_of_pos all]
      rfl
    rw [front, back, beq_self_eq_true, Bool.and_true]
    simpa using some

theorem getLast_cons_or (c : Char) (front : List Char) (before : Option Char) :
    (c :: front).getLast?.or before = front.getLast?.or (some c) := by
  cases front with
  | nil => rfl
  | cons d front =>
    rw [List.getLast?_cons_cons]
    cases last : (d :: front).getLast? with
    | none => simp at last
    | some e => rfl

/-- The scan finds an end of the text that the pattern reads, if there is one. -/
theorem endsInAdd_iff {before : Option Char} {text : List Char} :
    endsInAdd before text = true ↔ ∃ front back, text = front ++ (wordAdd ++ back) ∧
      (∀ c ∈ front.getLast?.or before, isWord c = false) ∧ endsCommand back = true := by
  induction text generalizing before with
  | nil =>
    refine iff_of_false Bool.false_ne_true ?_
    rintro ⟨front, back, split, -⟩
    cases front <;> cases split
  | cons c rest ih =>
    have here : (!before.any isWord && wordAdd.isPrefixOf (c :: rest) &&
        endsCommand ((c :: rest).drop 3)) = true ↔
        ∃ back, c :: rest = wordAdd ++ back ∧ (∀ c ∈ before, isWord c = false) ∧
          endsCommand back = true := by
      have boundary : (!before.any isWord) = true ↔ ∀ c ∈ before, isWord c = false := by
        cases before <;> simp
      rw [Bool.and_eq_true, Bool.and_eq_true, boundary, List.isPrefixOf_iff_prefix]
      constructor
      · rintro ⟨⟨free, back, split⟩, ends⟩
        refine ⟨back, split.symm, free, ?_⟩
        rwa [← split] at ends
      · rintro ⟨back, split, free, ends⟩
        rw [split]
        exact ⟨⟨free, List.prefix_append _ _⟩, ends⟩
    rw [endsInAdd, Bool.or_eq_true, here, ih]
    constructor
    · rintro (⟨back, split, free, ends⟩ | ⟨front, back, rfl, free, ends⟩)
      · exact ⟨[], back, split, free, ends⟩
      · exact ⟨c :: front, back, rfl, getLast_cons_or c front before ▸ free, ends⟩
    · rintro ⟨front, back, split, free, ends⟩
      cases front with
      | nil => exact .inl ⟨back, split, free, ends⟩
      | cons d front =>
        obtain ⟨rfl, rfl⟩ := List.cons.inj split
        exact .inr ⟨front, back, rfl, getLast_cons_or c front before ▸ free, ends⟩

theorem endsInAdd_none_iff (text : List Char) :
    endsInAdd none text = true ↔ EndsInAdd text := by
  simp only [endsInAdd_iff, Option.or_none, endsCommand_iff, EndsInAdd]

theorem slowPath_iff (p : Process) : slowPath p = true ↔ CommandLineLooks p := by
  rw [slowPath, CommandLineLooks]
  cases p.cmdline with
  | none => simp
  | some raw =>
    simp only [Option.some.injEq, exists_eq_left']
    have apart : "add-desktop".toList ≠ wordAdd := by decide
    split
    · next desktop =>
      refine iff_of_false Bool.false_ne_true ?_
      rintro (isAdd | ⟨other, -⟩)
      · exact apart (desktop.symm.trans isAdd)
      · exact other desktop
    · next other =>
      split
      · next isAdd => exact iff_of_true rfl (.inl isAdd)
      · next notAdd =>
        rw [endsInAdd_none_iff]
        exact ⟨fun ends => .inr ⟨other, ends⟩, fun looks => (looks.resolve_left notAdd).2⟩

theorem isRustAddCli_iff (w : World) (pid : ℤ) : isRustAddCli w pid = true ↔
    pid ≠ w.self ∧ w.listenProcess ≠ some pid ∧ ∃ p, w.process pid = some p ∧ Looks p := by
  rw [isRustAddCli]
  split
  · next mine => simp [mine]
  · next other =>
    split
    · next listener => simp [listener]
    · next notListener =>
      cases found : w.process pid with
      | none => simp
      | some p =>
        simp only [Option.some.injEq, exists_eq_left', Looks]
        cases name : p.comm with
        | none => simp [slowPath_iff, other, notListener]
        | some text =>
          have starts : wordAdd <+: "add-desktop".toList := ⟨"-desktop".toList, rfl⟩
          simp only [Option.some.injEq, exists_eq_left', forall_eq']
          split
          · next isAdd => exact iff_of_true rfl ⟨other, notListener, .inl isAdd⟩
          · next notAdd =>
            split
            · next desktop =>
              refine iff_of_false Bool.false_ne_true ?_
              rintro ⟨-, -, isAdd | ⟨free, -⟩⟩
              · exact notAdd isAdd
              · exact free (desktop ▸ starts)
            · split
              · next prefixed =>
                refine iff_of_false Bool.false_ne_true ?_
                rintro ⟨-, -, isAdd | ⟨free, -⟩⟩
                · exact notAdd isAdd
                · exact free (List.isPrefixOf_iff_prefix.mp prefixed)
              · next free =>
                rw [slowPath_iff]
                constructor
                · intro looks
                  exact ⟨other, notListener, .inr
                    ⟨fun h => free (List.isPrefixOf_iff_prefix.mpr h), looks⟩⟩
                · rintro ⟨-, -, isAdd | ⟨-, looks⟩⟩
                  · exact absurd isAdd notAdd
                  · exact looks

theorem mem_reapFile {w : World} {file : PidFile} {pid : ℤ} : pid ∈ (reapFile w file).1 ↔
    ∃ content, file = .text content ∧ parseInt (jsTrim content.toList) = some pid ∧ 0 < pid ∧
      alive w pid = true ∧ isRustAddCli w pid = true := by
  cases file with
  | absent => simp [reapFile]
  | unreadable => simp [reapFile]
  | text content =>
    simp only [reapFile, PidFile.text.injEq, exists_eq_left']
    cases read : parseInt (jsTrim content.toList) with
    | none => simp
    | some named =>
      simp only [Option.some.injEq]
      split
      · next low =>
        refine iff_of_false List.not_mem_nil ?_
        rintro ⟨rfl, positive, -⟩
        omega
      · next high =>
        split
        · next dead =>
          refine iff_of_false List.not_mem_nil ?_
          rintro ⟨rfl, -, lives, -⟩
          simp [lives] at dead
        · next lives =>
          have positive : 0 < named := by omega
          have signalled : alive w named = true := by simpa using lives
          split
          · next isCli =>
            rw [List.mem_singleton]
            constructor
            · rintro rfl
              exact ⟨rfl, positive, signalled, isCli⟩
            · rintro ⟨rfl, -⟩
              rfl
          · next notCli =>
            refine iff_of_false List.not_mem_nil ?_
            rintro ⟨rfl, -, -, isCli⟩
            exact notCli isCli

/-- Whom the function sends SIGTERM. -/
theorem mem_reaped {w : World} {pid : ℤ} : pid ∈ (reapStaleAddProcesses w).1 ↔
    Named w pid ∧ pid ≠ w.self ∧ w.listenProcess ≠ some pid ∧
      ∃ p, w.process pid = some p ∧ p.signalable = true ∧ Looks p := by
  have lives : ∀ {p}, w.process pid = some p → (alive w pid = true ↔ p.signalable = true) := by
    intro p found
    rw [alive, found]
    exact Iff.rfl
  simp only [reapStaleAddProcesses, List.mem_append, mem_reapFile, List.mem_filter,
    Bool.and_eq_true, isRustAddCli_iff]
  constructor
  · rintro ((⟨content, isFile, read, -, signalled, other, notListener, p, found, looks⟩ |
      ⟨content, isFile, read, -, signalled, other, notListener, p, found, looks⟩) |
      ⟨listed, ⟨other, notListener, p, found, looks⟩, signalled⟩)
    · exact ⟨.inl ⟨content, .inl isFile, read⟩, other, notListener, p, found,
        (lives found).mp signalled, looks⟩
    · exact ⟨.inl ⟨content, .inr isFile, read⟩, other, notListener, p, found,
        (lives found).mp signalled, looks⟩
    · exact ⟨.inr listed, other, notListener, p, found, (lives found).mp signalled, looks⟩
  · rintro ⟨named, other, notListener, p, found, signalled, looks⟩
    have signalled := (lives found).mpr signalled
    have positive := w.positive pid p found
    rcases named with ⟨content, isFile | isFile, read⟩ | listed
    · exact .inl (.inl ⟨content, isFile, read, positive, signalled, other, notListener, p, found,
        looks⟩)
    · exact .inl (.inr ⟨content, isFile, read, positive, signalled, other, notListener, p, found,
        looks⟩)
    · exact .inr ⟨listed, ⟨other, notListener, p, found, looks⟩, signalled⟩

/-- Only the command is killed exactly if every process that is named, may be signalled and
looks like the command runs it. The app and its listener are always spared. -/
theorem only_cli_reaped_iff (w : World) :
    ((∀ pid ∈ (reapStaleAddProcesses w).1, ∃ p, w.process pid = some p ∧ RunsAdd p ∧
        pid ≠ w.self ∧ w.listenProcess ≠ some pid) ↔
      ∀ pid p, Named w pid → w.process pid = some p → p.signalable = true → pid ≠ w.self →
        w.listenProcess ≠ some pid → Looks p → RunsAdd p) ∧
    ∀ pid ∈ (reapStaleAddProcesses w).1, pid ≠ w.self ∧ w.listenProcess ≠ some pid := by
  constructor
  · constructor
    · intro only pid p named found signalled other notListener looks
      obtain ⟨q, again, runs, -⟩ := only pid
        (mem_reaped.mpr ⟨named, other, notListener, p, found, signalled, looks⟩)
      rw [found] at again
      cases again
      exact runs
    · intro right pid reaped
      obtain ⟨named, other, notListener, p, found, signalled, looks⟩ := mem_reaped.mp reaped
      exact ⟨p, found, right pid p named found signalled other notListener looks, other,
        notListener⟩
  · intro pid reaped
    obtain ⟨-, other, notListener, -⟩ := mem_reaped.mp reaped
    exact ⟨other, notListener⟩

/-- A stale pid file whose pid has gone to an editor of a file named `add`. -/
def editorWorld : World where
  self := 100
  listenProcess := none
  appPidFile := .text "4242\n"
  listenPidFile := .absent
  pgrep := ""
  process pid :=
    if pid = 4242 then
      some ⟨"/usr/bin/vim", some "vim\n", some ("vim".push (Char.ofNat 0) ++ "add"), true⟩
    else none
  positive := by
    intro pid p found
    split at found
    · omega
    · cases found

theorem editor_reaped : (reapStaleAddProcesses editorWorld).1 = [4242] ∧
    ¬ ∀ p, editorWorld.process 4242 = some p → RunsAdd p := by
  refine ⟨by decide +kernel, fun runs => ?_⟩
  have wrong := runs _ rfl
  exact absurd wrong (by decide +kernel)

end StaleProcesses
