import AddMessenger.ShellWords

/-!
# Commands that pass the TPM shell

`runCliCommand` of `desktop-ui/electron/main.js`: a command that needs the TPM is written into
one text for `sg tss -c`, whose shell takes it apart again; every other command is started with
its arguments as they are.
-/

namespace TpmCommand

open ShellWords

def needsTpm (args : List String) : Bool :=
  (args.head? == some "init" && args.contains "--pin") ||
    (args.head? == some "unlock" && args.contains "--pin")

/-- The arguments of the `add-unlock` handler. -/
def unlockArgs (pin password : Option String) : List String :=
  ["unlock"] ++ (match pin with
    | some pin => if pin = "" then [] else ["--pin", pin]
    | none => []) ++
    match password with
    | some password => if password = "" then [] else ["--password", password]
    | none => []

/-- `a.includes(' ') ? quoted : a` -/
def quoteArg (a : List Char) : List Char := if ' ' ∈ a then '\'' :: (a ++ ['\'']) else a

/-- The words, joined by blanks. -/
def cliCmd : List (List Char) → List Char
  | [] => []
  | [a] => quoteArg a
  | a :: rest => quoteArg a ++ ' ' :: cliCmd rest

/-- What `spawn` is given: a program with its arguments, or a text for the shell of `sg`. -/
inductive Spawned where
  | program (words : List String)
  | shell (text : List Char)

def spawned (addCli : String) (args : List String) : Spawned :=
  if needsTpm args then .shell (cliCmd ((addCli :: args).map String.toList))
  else .program (addCli :: args)

def hasNul (text : List Char) : Bool := text.contains (Char.ofNat 0)

/-- The words of the command that runs, if it is the only thing that does. `spawn` refuses
arguments with a NUL. -/
def executed (addCli : String) (args : List String) : Option (List String) :=
  match spawned addCli args with
  | .program words => if words.any fun w => hasNul w.toList then none else some words
  | .shell text =>
    if hasNul text then none else (simpleCommand text).map (List.map String.ofList)

/-- With a blank in it, a word has no single quote. Without one it is not empty, begins no
comment, all its characters stand for themselves, nothing in it is expanded, and as the
command's name it is neither reserved nor an assignment. -/
def Survives (first last : Bool) (a : List Char) : Prop :=
  if ' ' ∈ a then '\'' ∉ a
  else a ≠ [] ∧ a.head? ≠ some '#' ∧ isBare last a = true ∧ isLiteral (wordOf false a) = true ∧
    (first = true → namesCommand (wordOf false a) = true)

def AllSurvive : Bool → List (List Char) → Prop
  | _, [] => True
  | first, [a] => Survives first true a
  | first, a :: rest => Survives first false a ∧ AllSurvive false rest

/-- The word that the shell makes of an argument. -/
def read (a : List Char) : Word := wordOf (decide (' ' ∈ a)) a

theorem chars_read (a : List Char) : chars (read a) = a := chars_wordOf _ a

theorem map_chars_read (args : List (List Char)) : (args.map read).map chars = args := by
  have plain : chars ∘ read = id := funext chars_read
  rw [List.map_map, plain, List.map_id]

/-- One argument in front of a blank or the end. -/
theorem lex_quoteArg {first last : Bool} {a back : List Char} (survives : Survives first last a)
    (behind : Behind last back) : ∃ quotes : List Char, ∀ words dropped,
      lex .plain (some (read a)) back = some (words, dropped) →
        lex .plain none (quoteArg a ++ back) = some (words, quotes ++ dropped) := by
  by_cases blank : ' ' ∈ a
  · rw [Survives, if_pos blank] at survives
    refine ⟨['\'', '\''], fun words dropped later => ?_⟩
    have shape : quoteArg a ++ back = '\'' :: (a ++ '\'' :: back) := by
      simp [quoteArg, blank]
    rw [read, decide_eq_true blank] at later
    rw [shape, lex_quoted survives, later]
    rfl
  · rw [Survives, if_neg blank] at survives
    obtain ⟨nonempty, noComment, bare, -⟩ := survives
    refine ⟨[], fun words dropped later => ?_⟩
    rw [read, decide_eq_false blank] at later
    rw [quoteArg, if_neg blank, lex_bare bare behind (.inl noComment) nonempty]
    exact later

theorem lex_cliCmd {first : Bool} {args : List (List Char)} (survive : AllSurvive first args) :
    ∃ dropped, lex .plain none (cliCmd args) = some (args.map read, dropped) := by
  induction args generalizing first with
  | nil => exact ⟨[], rfl⟩
  | cons a rest ih =>
    cases rest with
    | nil =>
      obtain ⟨quotes, follows⟩ := @lex_quoteArg _ _ _ [] survive rfl
      have whole := follows [read a] [] rfl
      rw [List.append_nil] at whole
      exact ⟨_, whole⟩
    | cons b rest =>
      obtain ⟨here, later⟩ := survive
      obtain ⟨dropped, lexed⟩ := ih later
      obtain ⟨quotes, follows⟩ := @lex_quoteArg _ _ _ (' ' :: cliCmd (b :: rest)) here ⟨_, rfl⟩
      refine ⟨_, follows (read a :: (b :: rest).map read) (' ' :: dropped) ?_⟩
      rw [lex_blank, lexed]
      rfl

theorem isLiteral_read {first last : Bool} {a : List Char} (survives : Survives first last a) :
    isLiteral (read a) = true := by
  by_cases blank : ' ' ∈ a
  · rw [read, decide_eq_true blank]
    exact isLiteral_quoted a
  · rw [Survives, if_neg blank] at survives
    rw [read, decide_eq_false blank]
    exact survives.2.2.2.1

theorem namesCommand_read {last : Bool} {a : List Char} (survives : Survives true last a) :
    namesCommand (read a) = true := by
  by_cases blank : ' ' ∈ a
  · rw [read, decide_eq_true blank]
    exact namesCommand_quoted (List.ne_nil_of_mem blank)
  · rw [Survives, if_neg blank] at survives
    rw [read, decide_eq_false blank]
    exact survives.2.2.2.2 rfl

theorem AllSurvive.each {first : Bool} {args : List (List Char)}
    (survive : AllSurvive first args) : ∀ a ∈ args, ∃ start last, Survives start last a := by
  induction args generalizing first with
  | nil => exact fun a none => nomatch none
  | cons a rest ih =>
    cases rest with
    | nil => exact List.forall_mem_singleton.mpr ⟨_, _, survive⟩
    | cons b rest => exact List.forall_mem_cons.mpr ⟨⟨_, _, survive.1⟩, ih survive.2⟩

theorem AllSurvive.head {a : List Char} {rest : List (List Char)}
    (survive : AllSurvive true (a :: rest)) : ∃ last, Survives true last a := by
  cases rest with
  | nil => exact ⟨_, survive⟩
  | cons b rest => exact ⟨_, survive.1⟩

theorem count_quoteArg {c : Char} (noQuote : c ≠ '\'') (a : List Char) :
    (quoteArg a).count c = a.count c := by
  rw [quoteArg]
  split
  · simp [List.count_append, Ne.symm noQuote]
  · rfl

/-- The text has no more of other characters than the arguments. -/
theorem count_cliCmd {c : Char} (noQuote : c ≠ '\'') (noBlank : c ≠ ' ')
    (args : List (List Char)) : (cliCmd args).count c = args.flatten.count c := by
  induction args with
  | nil => rfl
  | cons a rest ih =>
    cases rest with
    | nil =>
      rw [cliCmd, count_quoteArg noQuote, List.flatten_cons, List.flatten_nil, List.append_nil]
    | cons b rest =>
      have joined : cliCmd (a :: b :: rest) = quoteArg a ++ ' ' :: cliCmd (b :: rest) := rfl
      rw [joined, List.count_append, count_quoteArg noQuote,
        List.count_cons_of_ne (Ne.symm noBlank), ih, @List.flatten_cons _ a, List.count_append]

/-- What is read of one argument without single quotes, and that it is bare. -/
theorem quoteArg_of_lex {last : Bool} {a back : List Char} {words : List Word}
    {dropped : List Char} (lexed : lex .plain none (quoteArg a ++ back) = some (words, dropped))
    (behind : Behind last back) (noSingle : '\'' ∉ a) (noDouble : '"' ∉ dropped)
    (noEscape : '\\' ∉ dropped) (noTab : '\t' ∉ dropped) :
    (' ' ∈ a ∨ a.head? ≠ some '#' ∧ isBare last a = true) ∧
      ∃ more ⊆ dropped, lex .plain (if a = [] then none else some (read a)) back =
        some (words, more) := by
  by_cases blank : ' ' ∈ a
  · refine ⟨.inl blank, ?_⟩
    have shape : quoteArg a ++ back = '\'' :: (a ++ '\'' :: back) := by
      simp [quoteArg, blank]
    rw [shape, lex_quoted noSingle] at lexed
    obtain ⟨outer, inner, rfl⟩ := dropping_eq_some.mp lexed
    obtain ⟨more, innermost, rfl⟩ := dropping_eq_some.mp inner
    refine ⟨more, fun c member => by simp [member], ?_⟩
    rw [if_neg (List.ne_nil_of_mem blank), read, decide_eq_true blank]
    exact innermost
  · rw [quoteArg, if_neg blank] at lexed
    obtain ⟨bare, comment⟩ :=
      isBare_of_lex lexed behind blank noSingle noDouble noEscape noTab
    have noComment : a.head? ≠ some '#' := comment.resolve_right nofun
    refine ⟨.inr ⟨noComment, bare⟩, dropped, List.Subset.refl _, ?_⟩
    by_cases nothing : a = []
    · subst nothing
      exact lexed
    · rw [lex_bare bare behind (.inl noComment) nothing] at lexed
      rw [if_neg nothing, read, decide_eq_false blank]
      exact lexed

/-- All that is known of the arguments before the words are compared. -/
def AllBare : List (List Char) → Prop
  | [] => True
  | [a] => ' ' ∈ a ∨ a.head? ≠ some '#' ∧ isBare true a = true
  | a :: rest => (' ' ∈ a ∨ a.head? ≠ some '#' ∧ isBare false a = true) ∧ AllBare rest

theorem cliCmd_of_lex {args : List (List Char)} {words : List Word} {dropped : List Char}
    (lexed : lex .plain none (cliCmd args) = some (words, dropped))
    (noSingle : ∀ a ∈ args, '\'' ∉ a) (noDouble : '"' ∉ dropped) (noEscape : '\\' ∉ dropped)
    (noTab : '\t' ∉ dropped) : AllBare args ∧ words = (args.filter (· ≠ [])).map read := by
  induction args generalizing words dropped with
  | nil =>
    cases lexed
    exact ⟨trivial, rfl⟩
  | cons a rest ih =>
    obtain ⟨here, later⟩ := List.forall_mem_cons.mp noSingle
    cases rest with
    | nil =>
      rw [cliCmd, ← List.append_nil (quoteArg a)] at lexed
      obtain ⟨bare, more, -, ended⟩ :=
        @quoteArg_of_lex true _ _ _ _ lexed rfl here noDouble noEscape noTab
      refine ⟨bare, ?_⟩
      by_cases nothing : a = []
      · subst nothing
        cases ended
        rfl
      · rw [if_neg nothing] at ended
        cases ended
        simp [nothing]
    | cons b rest =>
      obtain ⟨bare, more, subset, goesOn⟩ :=
        @quoteArg_of_lex false _ _ _ _ lexed ⟨_, rfl⟩ here noDouble noEscape noTab
      rw [lex_blank] at goesOn
      obtain ⟨⟨others, outer⟩, inner, same⟩ := Option.map_eq_some_iff.mp goesOn
      cases same
      obtain ⟨final, innermost, rfl⟩ := dropping_eq_some.mp inner
      have kept : final ⊆ dropped := fun c member => subset (List.mem_cons_of_mem _ member)
      obtain ⟨allBare, rfl⟩ := ih innermost later (fun h => noDouble (kept h))
        (fun h => noEscape (kept h)) (fun h => noTab (kept h))
      refine ⟨⟨bare, allBare⟩, ?_⟩
      by_cases nothing : a = []
      · simp [nothing]
      · simp [nothing]

theorem survives_of_bare {first last : Bool} {a : List Char}
    (bare : ' ' ∈ a ∨ a.head? ≠ some '#' ∧ isBare last a = true) (noSingle : '\'' ∉ a)
    (nonempty : a ≠ []) (literal : isLiteral (read a) = true)
    (names : first = true → namesCommand (read a) = true) : Survives first last a := by
  by_cases blank : ' ' ∈ a
  · rw [Survives, if_pos blank]
    exact noSingle
  · rw [read, decide_eq_false blank] at literal names
    obtain ⟨noComment, bare⟩ := bare.resolve_left blank
    rw [Survives, if_neg blank]
    exact ⟨nonempty, noComment, bare, literal, names⟩

theorem allSurvive_of_bare {first : Bool} {args : List (List Char)} (bare : AllBare args)
    (noSingle : ∀ a ∈ args, '\'' ∉ a) (nonempty : ∀ a ∈ args, a ≠ [])
    (literal : ∀ a ∈ args, isLiteral (read a) = true)
    (names : first = true → ∀ a ∈ args.head?, namesCommand (read a) = true) :
    AllSurvive first args := by
  induction args generalizing first with
  | nil => trivial
  | cons a rest ih =>
    obtain ⟨freeHere, freeLater⟩ := List.forall_mem_cons.mp noSingle
    obtain ⟨someHere, someLater⟩ := List.forall_mem_cons.mp nonempty
    obtain ⟨literalHere, literalLater⟩ := List.forall_mem_cons.mp literal
    have command : first = true → namesCommand (read a) = true := fun isFirst =>
      names isFirst a rfl
    cases rest with
    | nil => exact survives_of_bare bare freeHere someHere literalHere command
    | cons b rest =>
      refine ⟨survives_of_bare bare.1 freeHere someHere literalHere command, ?_⟩
      exact ih bare.2 freeLater someLater literalLater nofun

/-- Where the words are the arguments, only what the quoting rule has added is dropped. -/
theorem not_mem_dropped {args : List (List Char)} {words : List Word} {dropped : List Char}
    (lexed : lex .plain none (cliCmd args) = some (words, dropped))
    (same : words.map chars = args) {c : Char} (noQuote : c ≠ '\'') (noBlank : c ≠ ' ') :
    c ∉ dropped := by
  have counts := (lex_perm lexed).count_eq c
  rw [same, List.count_append, List.count_append, count_cliCmd noQuote noBlank] at counts
  apply List.count_eq_zero.mp
  have nothing : (held none).count c = 0 := rfl
  omega

theorem simpleCommand_cliCmd_iff (args : List (List Char)) :
    simpleCommand (cliCmd args) = some args ↔ AllSurvive true args := by
  constructor
  · intro command
    obtain ⟨⟨words, dropped⟩, lexed, checked⟩ := Option.bind_eq_some_iff.mp command
    obtain ⟨checks, same⟩ := Option.ite_none_right_eq_some.mp checked
    have same : words.map chars = args := Option.some.inj same
    have noDouble : '"' ∉ dropped := not_mem_dropped lexed same (by decide) (by decide)
    have noEscape : '\\' ∉ dropped := not_mem_dropped lexed same (by decide) (by decide)
    have noTab : '\t' ∉ dropped := not_mem_dropped lexed same (by decide) (by decide)
    have noSingle : ∀ a ∈ args, '\'' ∉ a := by
      have free := lex_no_quote lexed noDouble noEscape nofun List.not_mem_nil
      rw [same] at free
      exact fun a member quote => free (List.mem_flatten.mpr ⟨a, member, quote⟩)
    obtain ⟨bare, rfl⟩ := cliCmd_of_lex lexed noSingle noDouble noEscape noTab
    have kept : args.filter (· ≠ []) = args := (map_chars_read _).symm.trans same
    have nonempty : ∀ a ∈ args, a ≠ [] := by
      intro a member
      have inFilter : a ∈ args.filter (· ≠ []) := kept.symm ▸ member
      exact of_decide_eq_true (List.mem_filter.mp inFilter).2
    rw [kept, Bool.and_eq_true, List.all_eq_true] at checks
    obtain ⟨literal, names⟩ := checks
    refine allSurvive_of_bare bare noSingle nonempty ?_ ?_
    · exact fun a member => literal _ (List.mem_map_of_mem member)
    · intro _ a isHead
      rw [List.head?_map, isHead] at names
      exact names
  · intro survive
    obtain ⟨dropped, lexed⟩ := lex_cliCmd survive
    have literal : (args.map read).all isLiteral = true := by
      rw [List.all_eq_true]
      intro word member
      obtain ⟨a, inArgs, rfl⟩ := List.mem_map.mp member
      obtain ⟨_, _, survives⟩ := survive.each a inArgs
      exact isLiteral_read survives
    have names : (args.map read).head?.all namesCommand = true := by
      cases args with
      | nil => rfl
      | cons a rest =>
        obtain ⟨_, survives⟩ := survive.head
        exact namesCommand_read survives
    rw [simpleCommand, lexed, Option.bind_some]
    simp only [literal, names, map_chars_read, Bool.and_self, if_true]

/-- A NUL in the text is one in an argument. -/
theorem hasNul_cliCmd (args : List (List Char)) :
    hasNul (cliCmd args) = args.any hasNul := by
  have nul := count_cliCmd (show Char.ofNat 0 ≠ '\'' by decide) (by decide) args
  rw [Bool.eq_iff_iff]
  simp only [hasNul, List.contains_iff_mem, List.any_eq_true]
  rw [← List.count_pos_iff, nul, List.count_pos_iff, List.mem_flatten]

theorem any_hasNul_eq_false (words : List String) :
    (words.any fun w => hasNul w.toList) = false ↔
      ∀ word ∈ words, hasNul word.toList = false := by
  simp

/-- Words are the same as texts and as lists of characters. -/
theorem map_ofList_eq_some {found : Option (List (List Char))} {words : List String} :
    found.map (List.map String.ofList) = some words ↔
      found = some (words.map String.toList) := by
  constructor
  · intro mapped
    obtain ⟨lists, rfl, rfl⟩ := Option.map_eq_some_iff.mp mapped
    simp
  · rintro rfl
    simp

/-- The command runs with its arguments exactly if none holds a NUL and, where it passes the
shell, every word survives it. -/
theorem executed_iff (addCli : String) (args : List String) :
    executed addCli args = some (addCli :: args) ↔
      (∀ word ∈ addCli :: args, hasNul word.toList = false) ∧
        (needsTpm args = true → AllSurvive true ((addCli :: args).map String.toList)) := by
  cases tpm : needsTpm args with
  | false =>
    simp only [executed, spawned, tpm, Bool.false_eq_true, if_false, false_imp_iff, and_true,
      ← any_hasNul_eq_false]
    split
    · next nul => simp [nul]
    · next noNul => simpa using noNul
  | true =>
    have text : hasNul (cliCmd ((addCli :: args).map String.toList)) = false ↔
        ∀ word ∈ addCli :: args, hasNul word.toList = false := by
      rw [hasNul_cliCmd, List.any_map, ← any_hasNul_eq_false]
      exact Iff.rfl
    simp only [executed, spawned, tpm, if_true, true_imp_iff, ← text]
    split
    · next nul => exact iff_of_false nofun fun both => Bool.false_ne_true (both.1.symm.trans nul)
    · next noNul =>
      rw [map_ofList_eq_some, simpleCommand_cliCmd_iff]
      exact ⟨fun survive => ⟨Bool.eq_false_iff.mpr noNul, survive⟩, fun both => both.2⟩

/-- A pin with a backslash reaches the command as another one; one with a semicolon ends the
command, and one with a quote and a blank is taken apart. -/
theorem pins_altered :
    executed "/opt/add/add" (unlockArgs (some "12\\34") none) =
        some ["/opt/add/add", "unlock", "--pin", "1234"] ∧
      executed "/opt/add/add" (unlockArgs (some "12;34") none) = none ∧
      executed "/opt/add/add" (unlockArgs (some "it's 12") (some "don't")) =
        some ["/opt/add/add", "unlock", "--pin", "its", "12 --password dont"] := by
  decide +kernel

end TpmCommand
