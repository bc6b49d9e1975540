import Mathlib.Data.List.Basic
import Mathlib.Data.List.Perm.Basic

/-!
# Words of the POSIX shell

When a text is, whatever variables, files and users there are, one simple command of literal
words: token recognition with the three kinds of quotes, operators, comments, expansions,
tildes and patterns, quote removal, and what a command may not start with. Where the standard
leaves open what a character does, it stands for itself, as in dash; bash expands `$[` as well.
-/

namespace ShellWords

/-- A character of a word, and whether it was quoted. -/
abbrev Piece := Char × Bool

abbrev Word := List Piece

inductive Mode where
  | plain
  | single
  | double

def isBlank (c : Char) : Bool := c = ' ' || c = '\t'

def isOperator (c : Char) : Bool := ['|', '&', ';', '<', '>', '(', ')', '\n'].contains c

/-- What makes a dollar sign in front of it an expansion. -/
def startsExpansion : List Char → Bool
  | [] => false
  | c :: _ => c.isAlphanum || ['_', '\x7b', '(', '@', '*', '#', '?', '-', '$', '!'].contains c

/-- What ends a command or expands, in front of the rest of the text. -/
def isActive (c : Char) (rest : List Char) : Bool :=
  isOperator c || c = '`' || (c = '$' && startsExpansion rest)

def extended (word : Option Word) (piece : Piece) : Option Word := some (word.getD [] ++ [piece])

abbrev Lexed := List Word × List Char

def dropping (c : Char) (lexed : Option Lexed) : Option Lexed :=
  lexed.map fun r => (r.1, c :: r.2)

/-- The words of a text and the characters that are dropped on the way; `none` if it is not
one command without expansions. The second argument is the word that is being read. -/
def lex : Mode → Option Word → List Char → Option Lexed
  | .plain, word, [] => some (word.toList, [])
  | .single, _, [] => none
  | .double, _, [] => none
  | .plain, word, c :: rest =>
    if c = '\\' then
      match rest with
      | [] => some ((extended word ('\\', false)).toList, [])
      | d :: more =>
        if d = '\n' then dropping c (dropping d (lex .plain word more))
        else dropping c (lex .plain (extended word (d, true)) more)
    else if isBlank c then
      (dropping c (lex .plain none rest)).map fun r => (word.toList ++ r.1, r.2)
    else if c = '\'' then dropping c (lex .single (some (word.getD [])) rest)
    else if c = '"' then dropping c (lex .double (some (word.getD [])) rest)
    else if (c = '#' && word.isNone) || isActive c rest then none
    else lex .plain (extended word (c, false)) rest
  | .single, word, c :: rest =>
    if c = '\'' then dropping c (lex .plain word rest)
    else lex .single (extended word (c, true)) rest
  | .double, word, c :: rest =>
    if c = '"' then dropping c (lex .plain word rest)
    else if c = '`' || (c = '$' && startsExpansion rest) then none
    else if c = '\\' then
      match rest with
      | [] => none
      | d :: more =>
        if d = '\n' then dropping c (dropping d (lex .double word more))
        else if ['$', '`', '"', '\\'].contains d then
          dropping c (lex .double (extended word (d, true)) more)
        else lex .double (extended (extended word (c, true)) (d, true)) more
    else lex .double (extended word (c, true)) rest

def closesBracket : Word → Bool
  | [] => false
  | (c, quoted) :: rest =>
    if c = ']' ∧ quoted = false then true
    else if c = '/' then false
    else closesBracket rest

/-- Behind an opening bracket: it is one of a bracket expression. -/
def isBracket (rest : Word) : Bool :=
  let listed := match rest with
    | ('!', false) :: more => more
    | ('^', false) :: more => more
    | _ => rest
  match listed with
  | (']', _) :: more => closesBracket more
  | _ => closesBracket listed

def isPattern : Word → Bool
  | [] => false
  | (c, quoted) :: rest =>
    (!quoted && (c = '*' || c = '?' || (c = '[' && isBracket rest))) || isPattern rest

/-- No tilde is expanded, and no file name can match but its own. -/
def isLiteral (word : Word) : Bool := word.head? != some ('~', false) && !isPattern word

def reservedWords : List String :=
  ["!", "\x7b", "\x7d", "case", "do", "done", "elif", "else", "esac", "fi", "for", "if", "in",
    "then", "until", "while"]

def chars (word : Word) : List Char := word.map Prod.fst

def isReserved (word : Word) : Bool :=
  word.all (fun piece => !piece.2) && (reservedWords.map String.toList).contains (chars word)

def isNameChar (c : Char) : Bool := c.isAlphanum || c = '_'

/-- A name and an unquoted equals sign. -/
def isAssignment (word : Word) : Bool :=
  let name := word.takeWhile fun piece => piece != ('=', false)
  name.length < word.length && name.all (fun piece => !piece.2 && isNameChar piece.1) &&
    name.head?.any fun piece => !piece.1.isDigit

/-- The first word names the command. -/
def namesCommand (word : Word) : Bool := !isReserved word && !isAssignment word

/-- The words of the only command of a text, if nothing else takes part. -/
def simpleCommand (text : List Char) : Option (List (List Char)) :=
  (lex .plain none text).bind fun r =>
    if r.1.all isLiteral && r.1.head?.all namesCommand then some (r.1.map chars) else none

theorem dropping_eq_some {c : Char} {lexed : Option Lexed} {words : List Word}
    {dropped : List Char} : dropping c lexed = some (words, dropped) ↔
      ∃ more, lexed = some (words, more) ∧ dropped = c :: more := by
  cases lexed with
  | none => simp [dropping]
  | some r =>
    obtain ⟨ws, more⟩ := r
    simp [dropping, eq_comm]

/-- The characters of the word that is being read. -/
def held (word : Option Word) : List Char := chars (word.getD [])

theorem held_extended (word : Option Word) (c : Char) (quoted : Bool) :
    held (extended word (c, quoted)) = held word ++ [c] := by
  simp [held, extended, chars]

theorem chars_toList (word : Option Word) : (word.toList.map chars).flatten = held word := by
  cases word <;> simp [held, chars]

theorem perm_dropping {c : Char} {front rest out more : List Char}
    (perm : (front ++ rest).Perm (out ++ more)) :
    (front ++ c :: rest).Perm (out ++ c :: more) :=
  (List.perm_middle.trans (perm.cons c)).trans List.perm_middle.symm

/-- A text is its words and what was dropped, up to the order. -/
theorem lex_perm {mode : Mode} {word : Option Word} {text : List Char} {words : List Word}
    {dropped : List Char} (lexed : lex mode word text = some (words, dropped)) :
    (held word ++ text).Perm ((words.map chars).flatten ++ dropped) := by
  have kept : ∀ (word : Option Word) (c : Char) (quoted : Bool) (rest : List Char),
      held word ++ c :: rest = held (extended word (c, quoted)) ++ rest := by
    intro word c quoted rest
    rw [held_extended, List.append_assoc, List.singleton_append]
  fun_induction lex mode word text generalizing words dropped with
  | case1 word =>
    cases lexed
    rw [chars_toList]
  | case2 | case3 | case10 | case15 | case16 => cases lexed
  | case4 word =>
    cases lexed
    rw [chars_toList, kept word '\\' false]
  | case5 word rest ih | case17 word rest _ _ ih =>
    obtain ⟨outer, inner, rfl⟩ := dropping_eq_some.mp lexed
    obtain ⟨more, innermost, rfl⟩ := dropping_eq_some.mp inner
    exact perm_dropping (perm_dropping (ih innermost))
  | case6 word d rest _ ih | case18 word d rest _ _ _ _ ih =>
    obtain ⟨more, inner, rfl⟩ := dropping_eq_some.mp lexed
    have perm := ih inner
    rw [← kept] at perm
    exact perm_dropping perm
  | case7 word c rest _ _ ih =>
    obtain ⟨⟨later, outer⟩, inner, same⟩ := Option.map_eq_some_iff.mp lexed
    cases same
    obtain ⟨more, innermost, rfl⟩ := dropping_eq_some.mp inner
    have perm := (ih innermost).append_left (held word)
    rw [List.map_append, List.flatten_append, chars_toList, List.append_assoc]
    exact (List.perm_middle.trans (perm.cons c)).trans
      (by rw [← List.append_assoc, ← List.append_assoc]; exact List.perm_middle.symm)
  | case8 word rest _ _ ih | case9 word rest _ _ _ ih =>
    obtain ⟨more, inner, rfl⟩ := dropping_eq_some.mp lexed
    exact perm_dropping (ih inner)
  | case12 word rest ih | case14 word rest ih =>
    obtain ⟨more, inner, rfl⟩ := dropping_eq_some.mp lexed
    exact perm_dropping (ih inner)
  | case11 word c rest _ _ _ _ _ ih | case13 word c rest _ ih | case20 word c rest _ _ _ ih =>
    have perm := ih lexed
    rwa [← kept] at perm
  | case19 word d rest _ _ _ _ ih =>
    have perm := ih lexed
    rwa [← kept, ← kept] at perm

/-- Without double quotes and escapes no word has a single quote. -/
theorem lex_no_quote {mode : Mode} {word : Option Word} {text : List Char} {words : List Word}
    {dropped : List Char} (lexed : lex mode word text = some (words, dropped))
    (noDouble : '"' ∉ dropped) (noEscape : '\\' ∉ dropped) (outside : mode ≠ .double)
    (free : '\'' ∉ held word) : '\'' ∉ (words.map chars).flatten := by
  have grown : ∀ {word : Option Word} {c : Char} (quoted : Bool), '\'' ∉ held word → c ≠ '\'' →
      '\'' ∉ held (extended word (c, quoted)) := by
    intro word c quoted free other
    rw [held_extended]
    simp [free, Ne.symm other]
  fun_induction lex mode word text generalizing words dropped with
  | case1 word =>
    cases lexed
    rwa [chars_toList]
  | case2 | case3 | case10 => cases lexed
  | case4 word =>
    cases lexed
    rw [chars_toList]
    exact grown false free (by decide)
  | case5 word rest ih | case6 word d rest _ ih =>
    obtain ⟨more, -, rfl⟩ := dropping_eq_some.mp lexed
    exact absurd List.mem_cons_self noEscape
  | case7 word c rest _ _ ih =>
    obtain ⟨⟨later, outer⟩, inner, same⟩ := Option.map_eq_some_iff.mp lexed
    cases same
    obtain ⟨more, innermost, rfl⟩ := dropping_eq_some.mp inner
    have back := ih innermost (fun h => noDouble (List.mem_cons_of_mem _ h))
      (fun h => noEscape (List.mem_cons_of_mem _ h)) nofun List.not_mem_nil
    rw [List.map_append, List.flatten_append, chars_toList, List.mem_append]
    exact not_or.mpr ⟨free, back⟩
  | case8 word rest _ _ ih | case12 word rest ih =>
    obtain ⟨more, inner, rfl⟩ := dropping_eq_some.mp lexed
    exact ih inner (fun h => noDouble (List.mem_cons_of_mem _ h))
      (fun h => noEscape (List.mem_cons_of_mem _ h)) nofun free
  | case9 word rest _ _ _ ih =>
    obtain ⟨more, -, rfl⟩ := dropping_eq_some.mp lexed
    exact absurd List.mem_cons_self noDouble
  | case11 word c rest _ _ other _ _ ih =>
    exact ih lexed noDouble noEscape nofun (grown false free other)
  | case13 word c rest other ih =>
    exact ih lexed noDouble noEscape nofun (grown true free other)
  | case14 | case15 | case16 | case17 | case18 | case19 | case20 => exact absurd rfl outside

/-- The characters of a word, all quoted or none. -/
def wordOf (quoted : Bool) (text : List Char) : Word := text.map fun c => (c, quoted)

/-- Every character stands for itself without quotes. A backslash does at the very end. -/
def isBare (last : Bool) : List Char → Bool
  | [] => true
  | c :: rest =>
    (if c = '\\' then last && rest.isEmpty
      else !isBlank c && c != '\'' && c != '"' && !isActive c rest) && isBare last rest

/-- What stands behind a bare word: a blank, or nothing. -/
def Behind (last : Bool) (back : List Char) : Prop :=
  if last then back = [] else ∃ more, back = ' ' :: more

theorem isActive_append {last : Bool} {back : List Char} (behind : Behind last back) (c : Char)
    (rest : List Char) : isActive c (rest ++ back) = isActive c rest := by
  cases rest with
  | cons d rest => rfl
  | nil =>
    cases last with
    | true =>
      obtain rfl : back = [] := behind
      rfl
    | false =>
      obtain ⟨more, rfl⟩ : ∃ more, back = ' ' :: more := behind
      rfl

theorem lex_single {text : List Char} (free : '\'' ∉ text) (word : Word) (rest : List Char) :
    lex .single (some word) (text ++ '\'' :: rest) =
      dropping '\'' (lex .plain (some (word ++ wordOf true text)) rest) := by
  induction text generalizing word with
  | nil => simp [lex, wordOf]
  | cons c text ih =>
    obtain ⟨other, free⟩ := List.ne_and_not_mem_of_not_mem_cons free
    rw [List.cons_append, lex, if_neg (Ne.symm other), extended, ih free]
    simp [wordOf]

/-- A character that stands for itself is read. -/
theorem lex_ordinary {word : Option Word} {c : Char} {rest : List Char} (noEscape : c ≠ '\\')
    (noBlank : isBlank c = false) (noSingle : c ≠ '\'') (noDouble : c ≠ '"')
    (noComment : c ≠ '#' ∨ word.isNone = false) (noActive : isActive c rest = false) :
    lex .plain word (c :: rest) = lex .plain (extended word (c, false)) rest := by
  have reads : ((c = '#' && word.isNone) || isActive c rest) = false := by
    rcases noComment with other | inWord
    · simp [other, noActive]
    · simp [inWord, noActive]
  rw [lex.eq_def]
  simp only [if_neg noEscape, noBlank, if_neg noSingle, if_neg noDouble, reads,
    Bool.false_eq_true, if_false]

theorem lex_escape_end (word : Option Word) :
    lex .plain word ['\\'] = lex .plain (extended word ('\\', false)) [] := by
  rw [lex.eq_def]
  rfl

theorem lex_blank (word : Option Word) (rest : List Char) :
    lex .plain word (' ' :: rest) =
      (dropping ' ' (lex .plain none rest)).map fun r => (word.toList ++ r.1, r.2) := by
  rw [lex.eq_def]
  rfl

theorem lex_open (word : Option Word) (rest : List Char) :
    lex .plain word ('\'' :: rest) = dropping '\'' (lex .single (some (word.getD [])) rest) := by
  rw [lex.eq_def]
  rfl

/-- A bare word is read up to what stands behind it. -/
theorem lex_bare {last : Bool} {text back : List Char} (bare : isBare last text = true)
    (behind : Behind last back) {word : Option Word}
    (noComment : text.head? ≠ some '#' ∨ word.isNone = false) (nonempty : text ≠ []) :
    lex .plain word (text ++ back) =
      lex .plain (some (word.getD [] ++ wordOf false text)) back := by
  induction text generalizing word with
  | nil => exact absurd rfl nonempty
  | cons c text ih =>
    rw [isBare, Bool.and_eq_true] at bare
    obtain ⟨here, later⟩ := bare
    have step : lex .plain word (c :: (text ++ back)) =
        lex .plain (extended word (c, false)) (text ++ back) := by
      by_cases escape : c = '\\'
      · rw [if_pos escape, Bool.and_eq_true, List.isEmpty_iff] at here
        obtain ⟨isLast, rfl⟩ := here
        rw [isLast] at behind
        obtain rfl : back = [] := behind
        rw [escape]
        exact lex_escape_end word
      · rw [if_neg escape] at here
        simp only [Bool.and_eq_true, Bool.not_eq_true', bne_iff_ne] at here
        obtain ⟨⟨⟨noBlank, noSingle⟩, noDouble⟩, noActive⟩ := here
        have comment : c ≠ '#' ∨ word.isNone = false := by simpa using noComment
        exact lex_ordinary escape noBlank noSingle noDouble comment
          ((isActive_append behind c text).trans noActive)
    rw [List.cons_append, step]
    by_cases ended : text = []
    · subst ended
      rfl
    · rw [ih later (.inr rfl) ended]
      simp [wordOf, extended]

/-- A text without blanks and single quotes that is read without dropping another quote, an
escape or a tab is bare. -/
theorem isBare_of_lex {last : Bool} {text back : List Char} {word : Option Word}
    {words : List Word} {dropped : List Char}
    (lexed : lex .plain word (text ++ back) = some (words, dropped)) (behind : Behind last back)
    (noSpace : ' ' ∉ text) (noSingle : '\'' ∉ text) (noDouble : '"' ∉ dropped)
    (noEscape : '\\' ∉ dropped) (noTab : '\t' ∉ dropped) :
    isBare last text = true ∧ (text.head? ≠ some '#' ∨ word.isNone = false) := by
  induction text generalizing word with
  | nil => exact ⟨rfl, .inl nofun⟩
  | cons c text ih =>
    obtain ⟨noSpaceHere, noSpace⟩ := List.ne_and_not_mem_of_not_mem_cons noSpace
    obtain ⟨noSingleHere, noSingle⟩ := List.ne_and_not_mem_of_not_mem_cons noSingle
    by_cases escape : c = '\\'
    · subst escape
      cases ending : text ++ back with
      | nil =>
        obtain ⟨rfl, rfl⟩ := List.append_eq_nil_iff.mp ending
        cases last with
        | true => exact ⟨rfl, .inl (by simp)⟩
        | false =>
          obtain ⟨more, none⟩ : ∃ more, [] = ' ' :: more := behind
          cases none
      | cons d more =>
        rw [List.cons_append, ending, lex.eq_def] at lexed
        simp only [if_true] at lexed
        split at lexed
        · obtain ⟨outer, -, rfl⟩ := dropping_eq_some.mp lexed
          exact absurd List.mem_cons_self noEscape
        · obtain ⟨outer, -, rfl⟩ := dropping_eq_some.mp lexed
          exact absurd List.mem_cons_self noEscape
    · rw [List.cons_append, lex.eq_def] at lexed
      simp only [if_neg escape] at lexed
      split at lexed
      · next blank =>
        -- the only other blank is a tab, which would be dropped
        have isTab : c = '\t' := by simpa [isBlank, Ne.symm noSpaceHere] using blank
        obtain ⟨⟨later, outer⟩, inner, same⟩ := Option.map_eq_some_iff.mp lexed
        cases same
        obtain ⟨more, -, rfl⟩ := dropping_eq_some.mp inner
        exact absurd (isTab ▸ List.mem_cons_self) noTab
      · next noBlank =>
        rw [if_neg (Ne.symm noSingleHere)] at lexed
        split at lexed
        · next isDouble =>
          obtain ⟨outer, -, rfl⟩ := dropping_eq_some.mp lexed
          exact absurd (isDouble ▸ List.mem_cons_self) noDouble
        · next other =>
          split at lexed
          · cases lexed
          · next reads =>
            obtain ⟨later, -⟩ := ih lexed noSpace noSingle
            rw [isActive_append behind] at reads
            simp only [Bool.or_eq_true, Bool.and_eq_true, decide_eq_true_eq, not_or, not_and,
              Bool.not_eq_true] at reads
            refine ⟨?_, ?_⟩
            · simp [isBare, escape, noBlank, Ne.symm noSingleHere, other, reads.2, later]
            · by_cases comment : c = '#'
              · exact .inr (reads.1 comment)
              · exact .inl (by simp [comment])

/-- A quoted word is read whole. -/
theorem lex_quoted {text : List Char} (free : '\'' ∉ text) (back : List Char) :
    lex .plain none ('\'' :: (text ++ '\'' :: back)) =
      dropping '\'' (dropping '\'' (lex .plain (some (wordOf true text)) back)) := by
  rw [lex_open, lex_single free]
  rfl

theorem chars_wordOf (quoted : Bool) (text : List Char) : chars (wordOf quoted text) = text := by
  rw [chars, wordOf, List.map_map]
  exact List.map_id text

theorem isLiteral_quoted (text : List Char) : isLiteral (wordOf true text) = true := by
  have noPattern : isPattern (wordOf true text) = false := by
    induction text with
    | nil => rfl
    | cons c text ih => exact ih
  rw [isLiteral, noPattern]
  cases text <;> simp [wordOf]

theorem namesCommand_quoted {text : List Char} (nonempty : text ≠ []) :
    namesCommand (wordOf true text) = true := by
  obtain ⟨c, rest, rfl⟩ := List.exists_cons_of_ne_nil nonempty
  simp [namesCommand, isReserved, isAssignment, wordOf]

end ShellWords
