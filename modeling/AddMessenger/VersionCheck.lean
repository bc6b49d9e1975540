import AddMessenger.CliOutput
import AddMessenger.Doubles
import Mathlib.Data.List.Lex
import Mathlib.Tactic.IntervalCases

/-!
# Versions of the installed and the latest release

`desktop-ui/electron/version-check.js`: `parseVersion` and `compareVersions`, what is read from
`add -V`, and the verdict of `checkVersion` when nothing is cached. Numbers of JavaScript are
doubles: `parseInt` rounds, and what is too large is infinite.
-/

namespace VersionCheck

open ByteStrings CliOutput Doubles Patterns Pattern

/-- A number that is not negative; the top is `Infinity`. -/
abbrev Number := WithTop ℚ

def number (n : ℕ) : Number := if nearest n ≤ maxFinite then ((nearest n : ℚ) : Number) else ⊤

/-- `parseInt(text, 10)` of a text without `-`; `none` is `NaN`. -/
def parseInt (text : List Char) : Option Number :=
  let unspaced := text.dropWhile isSpace
  let digitsAhead := if unspaced.head? = some '+' then unspaced.tail else unspaced
  let digits := digitsAhead.takeWhile Char.isDigit
  if digits = [] then none else some (number (Nat.ofDigitChars 10 digits 0))

def isMark (c : Char) : Bool := c = '.' || c = '-'

/-- `replace(/^[vV]?/, '')` -/
def withoutV : List Char → List Char
  | c :: rest => if c = 'v' ∨ c = 'V' then rest else c :: rest
  | [] => []

/-- The `add-` in front, in small or capital letters, is taken off. -/
def withoutAdd (text : List Char) : List Char :=
  if (text.take 4).map Char.toLower = "add-".toList then text.drop 4 else text

def padded (parts : List Number) : List Number :=
  parts ++ List.replicate (3 - parts.length) 0

def parseVersion (version : String) : Option (List Number) :=
  if version = "" ∨ version = "UNAVAILABLE" ∨ version = "UNKNOWN" then none
  else
    let clean := withoutAdd (withoutV (jsTrim version.toList))
    some ((padded ((clean.splitOnP isMark).filterMap parseInt)).take 4)

/-- The loop of `compareVersions`, at the given places. -/
def compareAt (a b : List Number) : List Nat → Int
  | [] => 0
  | i :: rest =>
    if a.getD i 0 < b.getD i 0 then -1
    else if b.getD i 0 < a.getD i 0 then 1
    else compareAt a b rest

def compareVersions : Option (List Number) → Option (List Number) → Int
  | none, none => 0
  | none, some _ => -1
  | some _, none => 1
  | some a, some b => compareAt a b (List.range (max a.length b.length))

/-- `execFile` with `maxBuffer: 1024` of a command that ends in time. -/
def execFile (stdout : String) : Option String :=
  if stdout.utf8ByteSize ≤ 1024 then some stdout else none

/-- `\d+\.\d+\.\d+` in its group -/
def numbersRe : Pattern :=
  let digits := atLeastOne true Char.isDigit
  group (seq digits (seq (word ".") (seq digits (seq (word ".") digits))))

/-- `add\s+` under the flag `i` -/
def addRe : Pattern :=
  seq (times 1 fun c => c = 'a' || c = 'A') (seq (times 2 fun c => c = 'd' || c = 'D')
    (atLeastOne true isSpace))

/-- `(?:add\s+)?(\d+\.\d+\.\d+)` at one place -/
def localRe (input : List Char) : Option Way :=
  (matchStart (seq addRe numbersRe) input).or (matchStart numbersRe input)

def searchLocal : List Char → Option Way
  | [] => localRe []
  | c :: rest => (localRe (c :: rest)).or (searchLocal rest)

/-- `none` is an error of the command. -/
def getLocalVersion (result : Option String) : String :=
  match result with
  | none => "UNAVAILABLE"
  | some stdout =>
    let version := jsTrim stdout.toList
    if version = [] then "UNAVAILABLE"
    else
      match searchLocal version with
      | some found => "v" ++ String.ofList (found.groups.headD [])
      | none => "UNAVAILABLE"

inductive Status where
  | unknown
  | upToDate
  | updateAvailable
  deriving DecidableEq

/-- The status that `checkVersion` finds without a cached result. -/
def checkVersion (result : Option String) (remoteVersion : String) : Status :=
  let localVersion := getLocalVersion result
  if localVersion = "UNAVAILABLE" ∨ remoteVersion = "UNKNOWN" then .unknown
  else if 0 ≤ compareVersions (parseVersion localVersion) (parseVersion remoteVersion) then
    .upToDate
  else .updateAvailable

structure Digits where
  chars : List Char
  nonempty : chars ≠ []
  plain : chars.all Char.isDigit = true

def Digits.value (d : Digits) : ℕ := Nat.ofDigitChars 10 d.chars 0

inductive Lead where
  | bare
  | small
  | capital
  | add

def Lead.text : Lead → List Char
  | bare => []
  | small => ['v']
  | capital => ['V']
  | add => "add-".toList

inductive Mark where
  | dot
  | hyphen

def Mark.char : Mark → Char
  | dot => '.'
  | hyphen => '-'

/-- `[v|V|add-]a.b.c[.d or -d]` -/
structure Release where
  lead : Lead
  major : Digits
  minor : Digits
  patch : Digits
  build : Option (Mark × Digits)

namespace Release

/-- The part that the pattern reads. -/
def core (r : Release) : List Char :=
  r.major.chars ++ '.' :: (r.minor.chars ++ '.' :: r.patch.chars)

def buildText (r : Release) : List Char :=
  match r.build with
  | none => []
  | some (mark, d) => mark.char :: d.chars

def text (r : Release) : String := String.ofList (r.lead.text ++ (r.core ++ r.buildText))

def buildNumber (r : Release) : ℕ := (r.build.map fun b => b.2.value).getD 0

def tuple (r : Release) : List ℕ := [r.major.value, r.minor.value, r.patch.value, r.buildNumber]

/-- What `add -V` prints of a build from this release, with or without the fourth part. -/
def printed (r : Release) (whole : Bool) : String :=
  String.ofList ("add ".toList ++ (r.core ++ ((if whole then r.buildText else []) ++ ['\n'])))

end Release

/-- The order of tuples as a number. -/
def threeWay {α : Type} [LinearOrder α] (a b : List α) : Int :=
  if a < b then -1 else if b < a then 1 else 0

/-- No other natural number has the same double. -/
def Exact (n : ℕ) : Prop := ∀ other, number other = number n → other = n

/-- Compared with any other release, on either side, the order is that of the tuples. -/
def Faithful (r : Release) : Prop :=
  ∀ other : Release,
    compareVersions (parseVersion r.text) (parseVersion other.text) =
        threeWay r.tuple other.tuple ∧
      compareVersions (parseVersion other.text) (parseVersion r.text) =
        threeWay other.tuple r.tuple

theorem number_mono {m n : ℕ} (le : m ≤ n) : number m ≤ number n := by
  have nearer : nearest m ≤ nearest n := nearest_mono (by exact_mod_cast le)
  rw [number, number]
  split
  · split
    · exact WithTop.coe_le_coe.mpr nearer
    · exact le_top
  · next large =>
    rw [if_neg fun small => large (nearer.trans small)]

theorem number_of_small {n : ℕ} (small : n ≤ 2 ^ 53) : number n = ((n : ℚ) : Number) := by
  rw [number, nearest_natCast small, if_pos (F64.natCast_bounded small)]

theorem number_zero : number 0 = 0 := number_of_small (Nat.zero_le _)

/-- Safe integers are exact. -/
theorem exact_of_safe {n : ℕ} (safe : n < 2 ^ 53) : Exact n := by
  intro other same
  rcases Nat.le_total other (2 ^ 53) with small | large
  · rw [number_of_small small, number_of_small safe.le] at same
    exact_mod_cast same
  · have above := number_mono large
    rw [same, number_of_small safe.le, number_of_small le_rfl] at above
    have : 2 ^ 53 ≤ n := by exact_mod_cast above
    omega

theorem threeWay_cons {α : Type} [LinearOrder α] (x y : α) (xs ys : List α) :
    threeWay (x :: xs) (y :: ys) =
      if x < y then -1 else if y < x then 1 else threeWay xs ys := by
  rcases lt_trichotomy x y with less | rfl | more
  · simp [threeWay, List.cons_lt_cons_iff, less]
  · simp [threeWay]
  · simp [threeWay, List.cons_lt_cons_iff, more, more.not_gt, more.ne']

theorem threeWay_self {α : Type} [LinearOrder α] (a : List α) : threeWay a a = 0 := by
  simp [threeWay]

theorem threeWay_eq_zero {α : Type} [LinearOrder α] {a b : List α} (zero : threeWay a b = 0) :
    a = b := by
  rw [threeWay] at zero
  split at zero
  · cases zero
  · next notLess =>
    split at zero
    · cases zero
    · next notMore => exact le_antisymm (not_lt.mp notMore) (not_lt.mp notLess)

/-- Rounding keeps the order of tuples if it tells the parts of one of them from all others. -/
theorem threeWay_map_number {a b : List ℕ} (sized : a.length = b.length)
    (exact_ : ∀ n ∈ a, Exact n) :
    threeWay (a.map number) (b.map number) = threeWay a b ∧
      threeWay (b.map number) (a.map number) = threeWay b a := by
  induction a generalizing b with
  | nil =>
    obtain rfl := List.length_eq_zero_iff.mp sized.symm
    exact ⟨rfl, rfl⟩
  | cons x xs ih =>
    cases b with
    | nil => cases sized
    | cons y ys =>
      obtain ⟨here, later⟩ := List.forall_mem_cons.mp exact_
      obtain ⟨forth, back⟩ := ih (Nat.succ.inj sized) later
      simp only [List.map_cons, threeWay_cons, forth, back]
      rcases lt_trichotomy x y with less | rfl | more
      · have below : number x < number y :=
          lt_of_le_of_ne (number_mono less.le) fun same => less.ne' (here y same.symm)
        simp [less, below, less.not_gt, below.not_gt]
      · simp
      · have above : number y < number x :=
          lt_of_le_of_ne (number_mono more.le) fun same => more.ne (here y same)
        simp [more, above, more.not_gt, above.not_gt]

theorem jsTrim_of_free {text : List Char} (free : ∀ c ∈ text, isSpace c = false) :
    jsTrim text = text := by
  have front : text.dropWhile isSpace = text := by
    cases text with
    | nil => rfl
    | cons c rest => simp [free c List.mem_cons_self]
  have back : text.reverse.dropWhile isSpace = text.reverse := by
    cases reversed : text.reverse with
    | nil => rfl
    | cons c rest =>
      have member : c ∈ text := List.mem_reverse.mp (reversed ▸ List.mem_cons_self)
      simp [free c member]
  rw [jsTrim, front, back, List.reverse_reverse]

/-- A digit is no space, no mark and no letter. -/
theorem digit_facts {c : Char} (digit : c.isDigit = true) :
    isSpace c = false ∧ isMark c = false ∧ c ≠ '+' ∧ c ≠ 'v' ∧ c ≠ 'V' ∧ c.toLower ≠ 'a' := by
  have bounds : 48 ≤ c.toNat ∧ c.toNat ≤ 57 := by
    simpa [Char.isDigit, UInt32.le_iff_toNat_le] using digit
  obtain ⟨lower, upper⟩ := bounds
  rw [← Char.ofNat_toNat c]
  interval_cases c.toNat <;> decide

namespace Digits

variable (d : Digits)

theorem exists_cons : ∃ c rest, d.chars = c :: rest ∧ c.isDigit = true := by
  cases chars : d.chars with
  | nil => exact absurd chars d.nonempty
  | cons c rest =>
    have plain := List.all_eq_true.mp d.plain c
    rw [chars] at plain
    exact ⟨c, rest, rfl, plain List.mem_cons_self⟩

theorem isDigit_of_mem {c : Char} (member : c ∈ d.chars) : c.isDigit = true :=
  List.all_eq_true.mp d.plain c member

theorem parseInt_chars : parseInt d.chars = some (number d.value) := by
  obtain ⟨c, rest, chars, digit⟩ := d.exists_cons
  have unspaced : d.chars.dropWhile isSpace = d.chars := by
    rw [chars, List.dropWhile_cons, (digit_facts digit).1]
    rfl
  have plus : ¬ d.chars.head? = some '+' := by
    rw [chars, List.head?_cons, Option.some.injEq]
    exact (digit_facts digit).2.2.1
  have all : d.chars.takeWhile Char.isDigit = d.chars :=
    List.takeWhile_eq_self_iff.mpr fun _ => d.isDigit_of_mem
  simp only [parseInt, unspaced, if_neg plus, all, if_neg d.nonempty, value]

theorem not_isMark {c : Char} (member : c ∈ d.chars) : isMark c = false :=
  (digit_facts (d.isDigit_of_mem member)).2.1

end Digits

namespace Release

variable (r : Release)

/-- Behind the prefix stand the numbers with their marks. -/
theorem splitOnP_numbers : (r.core ++ r.buildText).splitOnP isMark =
    [r.major.chars, r.minor.chars, r.patch.chars] ++ (r.build.map fun b => b.2.chars).toList := by
  have plain : ∀ d : Digits, ∀ c ∈ d.chars, isMark c = false := fun d _ => d.not_isMark
  have cut : ∀ (d : Digits) (sep : Char) (rest : List Char), isMark sep = true →
      (d.chars ++ sep :: rest).splitOnP isMark = d.chars :: rest.splitOnP isMark :=
    fun d sep rest mark => List.splitOnP_append_cons_of_forall_mem (plain d) sep mark rest
  cases isBuild : r.build with
  | none =>
    simp only [core, buildText, isBuild, List.append_nil]
    rw [cut _ _ _ rfl, cut _ _ _ rfl, List.splitOnP_eq_singleton (plain r.patch)]
    rfl
  | some build =>
    obtain ⟨mark, d⟩ := build
    have isMark_char : isMark mark.char = true := by cases mark <;> rfl
    simp only [core, buildText, isBuild, List.append_assoc, List.cons_append]
    rw [cut _ _ _ rfl, cut _ _ _ rfl, cut _ _ _ isMark_char,
      List.splitOnP_eq_singleton (plain d)]
    rfl

/-- The numbers that are compared. -/
def numbers (r : Release) : List Number :=
  [number r.major.value, number r.minor.value, number r.patch.value] ++
    (r.build.map fun b => number b.2.value).toList

theorem isSpace_of_mem_core {c : Char} (member : c ∈ r.core ++ r.buildText) :
    isSpace c = false := by
  have digits : ∀ d : Digits, c ∈ d.chars → isSpace c = false :=
    fun d member => (digit_facts (d.isDigit_of_mem member)).1
  have behind : c ∈ r.buildText → isSpace c = false := by
    intro member
    rw [buildText] at member
    split at member
    · cases member
    · next mark d isBuild =>
      rcases List.mem_cons.mp member with rfl | inBuild
      · cases mark <;> rfl
      · exact digits d inBuild
  rcases List.mem_append.mp member with inCore | inBuild
  · simp only [core, List.mem_append, List.mem_cons] at inCore
    rcases inCore with h | rfl | h | rfl | h
    · exact digits _ h
    · rfl
    · exact digits _ h
    · rfl
    · exact digits _ h
  · exact behind inBuild

theorem isSpace_of_mem {c : Char} (member : c ∈ r.lead.text ++ (r.core ++ r.buildText)) :
    isSpace c = false := by
  rcases List.mem_append.mp member with inLead | inBody
  · have free : ∀ lead : Lead, lead.text.all (fun c => !isSpace c) = true := by
      intro lead
      cases lead <;> decide +kernel
    have here := List.all_eq_true.mp (free r.lead) c inLead
    simpa using here
  · exact r.isSpace_of_mem_core inBody

theorem without_lead : withoutAdd (withoutV (r.lead.text ++ (r.core ++ r.buildText))) =
    r.core ++ r.buildText := by
  obtain ⟨c, rest, chars, digit⟩ := r.major.exists_cons
  obtain ⟨-, -, -, noV, noCapital, noAdd⟩ := digit_facts digit
  have starts : r.core ++ r.buildText =
      c :: (rest ++ '.' :: (r.minor.chars ++ '.' :: r.patch.chars) ++ r.buildText) := by
    rw [core, chars, List.cons_append, List.cons_append]
  have noPrefix : withoutAdd (r.core ++ r.buildText) = r.core ++ r.buildText := by
    refine if_neg fun same => noAdd ?_
    rw [starts, List.take_succ_cons, List.map_cons] at same
    exact (List.cons.inj same).1
  cases r.lead with
  | bare =>
    have kept : withoutV (r.core ++ r.buildText) = r.core ++ r.buildText := by
      rw [starts, withoutV, if_neg (by simp [noV, noCapital])]
    rw [Lead.text, List.nil_append, kept, noPrefix]
  | small => exact noPrefix
  | capital => exact noPrefix
  | add => rfl

theorem mem_text_dot : '.' ∈ r.text.toList := by
  simp [text, core]

theorem parseVersion_text : parseVersion r.text = some r.numbers := by
  have named : ¬ (r.text = "" ∨ r.text = "UNAVAILABLE" ∨ r.text = "UNKNOWN") := by
    have dot := r.mem_text_dot
    rintro (same | same | same) <;> rw [same] at dot <;> exact absurd dot (by decide)
  have trimmedText : jsTrim r.text.toList = r.lead.text ++ (r.core ++ r.buildText) := by
    rw [text, String.toList_ofList]
    exact jsTrim_of_free fun c => r.isSpace_of_mem
  rw [parseVersion, if_neg named]
  simp only [trimmedText, without_lead, splitOnP_numbers]
  cases isBuild : r.build with
  | none => simp [numbers, isBuild, Digits.parseInt_chars, padded]
  | some build => simp [numbers, isBuild, Digits.parseInt_chars, padded]

theorem numbers_getD (i : Nat) : r.numbers.getD i 0 = (r.tuple.map number).getD i 0 := by
  cases isBuild : r.build with
  | none =>
    simp only [numbers, tuple, buildNumber, isBuild, Option.map_none, Option.getD_none,
      Option.toList_none, List.append_nil, List.map_cons, List.map_nil, number_zero]
    match i with
    | 0 | 1 | 2 | 3 => rfl
    | _ + 4 => rfl
  | some build => simp [numbers, tuple, buildNumber, isBuild]

theorem length_numbers : r.numbers.length = 3 + r.build.toList.length := by
  cases isBuild : r.build with
  | none => simp [numbers, isBuild]
  | some build => simp [numbers, isBuild]

end Release

theorem compareAt_congr {a a' b b' : List Number} (left : ∀ i, a.getD i 0 = a'.getD i 0)
    (right : ∀ i, b.getD i 0 = b'.getD i 0) (places : List Nat) :
    compareAt a b places = compareAt a' b' places := by
  induction places with
  | nil => rfl
  | cons i rest ih => rw [compareAt, compareAt, left, right, ih]

theorem compareAt_four (a b c d a' b' c' d' : Number) :
    compareAt [a, b, c, d] [a', b', c', d'] (List.range 4) =
      threeWay [a, b, c, d] [a', b', c', d'] := by
  have places : List.range 4 = [0, 1, 2, 3] := rfl
  have last : threeWay ([] : List Number) [] = 0 := threeWay_self []
  rw [places, threeWay_cons, threeWay_cons, threeWay_cons, threeWay_cons, last]
  rfl

/-- Without a fourth part on either side three places are enough. -/
theorem compareAt_three (a b c a' b' c' d : Number) :
    compareAt [a, b, c, d] [a', b', c', d] (List.range 3) =
      threeWay [a, b, c, d] [a', b', c', d] := by
  have places : List.range 3 = [0, 1, 2] := rfl
  rw [places, threeWay_cons, threeWay_cons, threeWay_cons, threeWay_self]
  rfl

/-- `compareVersions` compares the rounded tuples. -/
theorem compareVersions_text (r other : Release) :
    compareVersions (parseVersion r.text) (parseVersion other.text) =
      threeWay (r.tuple.map number) (other.tuple.map number) := by
  rw [r.parseVersion_text, other.parseVersion_text, compareVersions,
    compareAt_congr r.numbers_getD other.numbers_getD, r.length_numbers, other.length_numbers]
  cases mine : r.build with
  | some build =>
    cases others : other.build with
    | some build' => exact compareAt_four ..
    | none => exact compareAt_four ..
  | none =>
    cases others : other.build with
    | some build' => exact compareAt_four ..
    | none =>
      simp only [Release.tuple, Release.buildNumber, mine, others]
      exact compareAt_three ..

/-- The decimal digits of a number. -/
def digitsOf (n : ℕ) : Digits where
  chars := Nat.toDigits 10 n
  nonempty := Nat.toDigits_ne_nil
  plain := List.all_eq_true.mpr fun c member =>
    isDigit_of_mem_toString (by rwa [toList_toString])

theorem value_digitsOf (n : ℕ) : (digitsOf n).value = n := Nat.ofDigitChars_ten_toDigits

theorem faithful_iff (r : Release) : Faithful r ↔ ∀ n ∈ r.tuple, Exact n := by
  constructor
  · intro faithful n member q same
    -- another release that differs in this part only is taken for the same
    have confused : ∀ other : Release, other.tuple.map number = r.tuple.map number →
        other.tuple = r.tuple := by
      intro other equal
      have result := (faithful other).1
      rw [compareVersions_text, equal, threeWay_self] at result
      exact (threeWay_eq_zero result.symm).symm
    simp only [Release.tuple, List.mem_cons, List.not_mem_nil, or_false] at member
    rcases member with rfl | rfl | rfl | rfl
    · have := confused { r with major := digitsOf q } (by
        simp [Release.tuple, Release.buildNumber, value_digitsOf, same])
      simpa [Release.tuple, Release.buildNumber, value_digitsOf] using this
    · have := confused { r with minor := digitsOf q } (by
        simp [Release.tuple, Release.buildNumber, value_digitsOf, same])
      simpa [Release.tuple, Release.buildNumber, value_digitsOf] using this
    · have := confused { r with patch := digitsOf q } (by
        simp [Release.tuple, Release.buildNumber, value_digitsOf, same])
      simpa [Release.tuple, Release.buildNumber, value_digitsOf] using this
    · have := confused { r with build := some (.dot, digitsOf q) } (by
        simp [Release.tuple, Release.buildNumber, value_digitsOf] at same ⊢
        exact same)
      simpa [Release.tuple, Release.buildNumber, value_digitsOf] using this
  · intro exact_ other
    rw [compareVersions_text, compareVersions_text]
    exact threeWay_map_number rfl exact_

/-- If both parts match first where they start, so does the sequence. -/
theorem matchStart_seq {p q : Pattern} {input : List Char} {w v : Way}
    (first : matchStart p input = some w) (second : matchStart q w.rest = some v) :
    matchStart (seq p q) input = some ⟨w.text ++ v.text, v.rest, w.groups ++ v.groups⟩ := by
  obtain ⟨more, isFirst⟩ := List.head?_eq_some_iff.mp first
  obtain ⟨others, isSecond⟩ := List.head?_eq_some_iff.mp second
  rw [matchStart, ways, isFirst, List.flatMap_cons, isSecond]
  rfl

theorem matchStart_group {p : Pattern} {input : List Char} {w : Way}
    (inside : matchStart p input = some w) :
    matchStart (group p) input = some ⟨w.text, w.rest, w.text :: w.groups⟩ := by
  obtain ⟨more, isFirst⟩ := List.head?_eq_some_iff.mp inside
  rw [matchStart, ways, isFirst]
  rfl

/-- Characters of a class are read up to the first that is of another. -/
theorem matchStart_atLeastOne {allowed : Char → Bool} {text rest : List Char}
    (nonempty : text ≠ []) (all : ∀ c ∈ text, allowed c = true)
    (ends : ∀ c ∈ rest.head?, allowed c = false) :
    matchStart (atLeastOne true allowed) (text ++ rest) = some ⟨text, rest, []⟩ := by
  obtain ⟨c, more, rfl⟩ := List.exists_cons_of_ne_nil nonempty
  obtain ⟨here, later⟩ := List.forall_mem_cons.mp all
  have one : matchStart (times 1 allowed) (c :: more ++ rest) = some ⟨[c], more ++ rest, []⟩ := by
    simp [matchStart, ways, here]
  have taken : (more ++ rest).takeWhile allowed = more := by
    rw [List.takeWhile_append_of_pos later]
    cases rest with
    | nil => simp
    | cons d rest => simp [ends d rfl]
  have all_ : matchStart (many true allowed) (more ++ rest) = some ⟨more, rest, []⟩ := by
    simp [matchStart, ways, taken, List.range_succ]
  exact matchStart_seq one all_

namespace Release

variable (r : Release)

theorem matchStart_numbersRe {rest : List Char} (ends : ∀ c ∈ rest.head?, c.isDigit = false) :
    matchStart numbersRe (r.core ++ rest) = some ⟨r.core, rest, [r.core]⟩ := by
  have digits : ∀ (d : Digits) (back : List Char), (∀ c ∈ back.head?, c.isDigit = false) →
      matchStart (atLeastOne true Char.isDigit) (d.chars ++ back) = some ⟨d.chars, back, []⟩ :=
    fun d back ends => matchStart_atLeastOne d.nonempty (fun _ => d.isDigit_of_mem) ends
  have dot : ∀ back : List Char, matchStart (word ".") ('.' :: back) = some ⟨['.'], back, []⟩ :=
    fun back => by simp [matchStart, ways, word]
  have marked : ∀ back : List Char, ∀ c ∈ ('.' :: back).head?, c.isDigit = false := by
    rintro back c ⟨⟩
    rfl
  have split : r.core ++ rest =
      r.major.chars ++ '.' :: (r.minor.chars ++ '.' :: (r.patch.chars ++ rest)) := by
    simp [core]
  have whole := matchStart_group (matchStart_seq (digits r.major _ (marked _))
    (matchStart_seq (dot _) (matchStart_seq (digits r.minor _ (marked _))
      (matchStart_seq (dot _) (digits r.patch rest ends)))))
  rw [split, numbersRe, whole]
  simp [core]

theorem matchStart_addRe (rest : List Char) (ends : ∀ c ∈ rest.head?, isSpace c = false) :
    matchStart addRe ("add ".toList ++ rest) = some ⟨"add ".toList, rest, []⟩ := by
  have letter : matchStart (times 1 fun c => c = 'a' || c = 'A') ("add ".toList ++ rest) =
      some ⟨['a'], "dd ".toList ++ rest, []⟩ := by
    simp [matchStart, ways]
  have letters : matchStart (times 2 fun c => c = 'd' || c = 'D') ("dd ".toList ++ rest) =
      some ⟨['d', 'd'], [' '] ++ rest, []⟩ := by
    simp [matchStart, ways]
  have space : matchStart (atLeastOne true isSpace) ([' '] ++ rest) = some ⟨[' '], rest, []⟩ :=
    matchStart_atLeastOne (by simp) (by simp [isSpace]) ends
  exact matchStart_seq letter (matchStart_seq letters space)

/-- The printed line without its end. -/
theorem jsTrim_printed (whole : Bool) : jsTrim (r.printed whole).toList =
    "add ".toList ++ (r.core ++ if whole then r.buildText else []) := by
  have ending : ∃ front d, r.core ++ (if whole then r.buildText else []) = front ++ [d] ∧
      isSpace d = false := by
    have last : ∀ d : Digits, ∃ front c, d.chars = front ++ [c] ∧ isSpace c = false := by
      intro d
      refine ⟨d.chars.dropLast, d.chars.getLast d.nonempty,
        (List.dropLast_append_getLast d.nonempty).symm, ?_⟩
      exact (digit_facts (d.isDigit_of_mem (List.getLast_mem d.nonempty))).1
    obtain ⟨front, c, split, noSpace⟩ := last r.patch
    have short : r.core ++ [] =
        (r.major.chars ++ '.' :: (r.minor.chars ++ '.' :: front)) ++ [c] := by
      simp [core, split]
    cases whole with
    | false => exact ⟨_, c, short, noSpace⟩
    | true =>
      cases isBuild : r.build with
      | none =>
        have none : r.buildText = [] := by rw [buildText, isBuild]
        exact ⟨_, c, (congrArg (r.core ++ ·) none).trans short, noSpace⟩
      | some build =>
        obtain ⟨mark, d⟩ := build
        obtain ⟨front, c, split, noSpace⟩ := last d
        exact ⟨r.core ++ mark.char :: front, c, by simp [buildText, isBuild, split], noSpace⟩
  obtain ⟨front, d, split, noSpace⟩ := ending
  have line : (r.printed whole).toList =
      "add ".toList ++ (r.core ++ ((if whole then r.buildText else []) ++ ['\n'])) :=
    String.toList_ofList
  rw [line, ← List.append_assoc r.core, split]
  have newline : isSpace '\n' = true := rfl
  have letter : isSpace 'a' = false := rfl
  simp [jsTrim, noSpace, newline, letter]

theorem getLocalVersion_printed (whole : Bool) :
    getLocalVersion (some (r.printed whole)) = "v" ++ String.ofList r.core := by
  have ends : ∀ c ∈ (if whole then r.buildText else []).head?, c.isDigit = false := by
    intro c member
    cases whole with
    | false => cases member
    | true =>
      cases isBuild : r.build with
      | none => simp [buildText, isBuild] at member
      | some build =>
        obtain ⟨mark, d⟩ := build
        simp [buildText, isBuild] at member
        subst member
        cases mark <;> rfl
  have begins : ∀ c ∈ (r.core ++ if whole then r.buildText else []).head?,
      isSpace c = false := by
    intro c member
    obtain ⟨first, more, chars, digit⟩ := r.major.exists_cons
    simp [core, chars] at member
    subst member
    exact (digit_facts digit).1
  have found := matchStart_seq (matchStart_addRe _ begins) (r.matchStart_numbersRe ends)
  have first : localRe ("add ".toList ++ (r.core ++ if whole then r.buildText else [])) =
      some ⟨"add ".toList ++ r.core, if whole then r.buildText else [], [r.core]⟩ := by
    rw [localRe, found]
    rfl
  have searched : searchLocal ("add ".toList ++ (r.core ++ if whole then r.buildText else [])) =
      some ⟨"add ".toList ++ r.core, if whole then r.buildText else [], [r.core]⟩ := by
    have step : ∀ (c : Char) (rest : List Char) (w : Way), localRe (c :: rest) = some w →
        searchLocal (c :: rest) = some w := by
      intro c rest w here
      rw [searchLocal, here]
      rfl
    exact step _ _ _ first
  simp only [getLocalVersion, jsTrim_printed, searched, List.headD_cons]
  rw [if_neg (by simp)]

/-- The release as the check sees the installed command. -/
def installed (r : Release) : Release := { r with lead := .small, build := none }

theorem text_installed : r.installed.text = "v" ++ String.ofList r.core := by
  simp [installed, text, Lead.text, buildText, core, String.ofList_append]

end Release

theorem number_nonneg (n : ℕ) : 0 ≤ number n := number_zero ▸ number_mono (Nat.zero_le n)

theorem number_pos {n : ℕ} (positive : 0 < n) : 0 < number n := by
  have one : number 1 = 1 := by
    rw [number_of_small (by norm_num)]
    rfl
  calc (0 : Number) < 1 := zero_lt_one
    _ = number 1 := one.symm
    _ ≤ number n := number_mono positive

theorem checkVersion_iff (r : Release) (whole : Bool) :
    checkVersion (execFile (r.printed whole)) r.text = .upToDate ↔
      (r.printed whole).utf8ByteSize ≤ 1024 ∧ r.buildNumber = 0 := by
  rw [execFile]
  split
  · next fits =>
    have dots : ∀ other : Release, other.text ≠ "UNAVAILABLE" ∧ other.text ≠ "UNKNOWN" := by
      intro other
      have dot := other.mem_text_dot
      constructor <;> intro same <;> rw [same] at dot <;> exact absurd dot (by decide)
    have available : ¬ (r.installed.text = "UNAVAILABLE" ∨ r.text = "UNKNOWN") := by
      rintro (same | same)
      · exact (dots r.installed).1 same
      · exact (dots r).2 same
    rw [checkVersion, r.getLocalVersion_printed, ← r.text_installed]
    simp only [if_neg available, compareVersions_text, fits, true_and]
    have last : threeWay (r.installed.tuple.map number) (r.tuple.map number) =
        if 0 < number r.buildNumber then -1 else 0 := by
      simp only [Release.tuple, Release.installed, Release.buildNumber, List.map_cons,
        List.map_nil, threeWay_cons, lt_self_iff_false, if_false, threeWay_self, Option.map_none,
        Option.getD_none, number_zero]
      rw [if_neg (not_lt.mpr (number_nonneg _))]
      rfl
    rw [last]
    by_cases zero : r.buildNumber = 0
    · simp [zero, number_zero]
    · simp [zero, number_pos (Nat.pos_of_ne_zero zero)]
  · next large =>
    refine iff_of_false (fun status => ?_) (fun both => large both.1)
    cases status

theorem compareVersions_le_zero_iff (r other : Release) :
    compareVersions (parseVersion r.text) (parseVersion other.text) ≤ 0 ↔
      r.tuple.map number ≤ other.tuple.map number := by
  rw [compareVersions_text, threeWay]
  rcases lt_trichotomy (r.tuple.map number) (other.tuple.map number) with less | same | more
  · simp [less, less.le]
  · simp [same]
  · simp [more, more.not_gt, more.not_ge]

/-- A release is ordered as its numbers are exactly if no part of it shares its double with
another number; the check of a build from the latest release says that it is up to date exactly
if its fourth part is zero or absent and the printed line fits into the buffer. In every case
the comparison is a total preorder. -/
theorem version_check_iff (r : Release) (whole : Bool) :
    (Faithful r ↔ ∀ n ∈ r.tuple, Exact n) ∧
    (checkVersion (execFile (r.printed whole)) r.text = .upToDate ↔
      (r.printed whole).utf8ByteSize ≤ 1024 ∧ r.buildNumber = 0) ∧
    (∀ x y : Release, compareVersions (parseVersion x.text) (parseVersion y.text) ≤ 0 ∨
      compareVersions (parseVersion y.text) (parseVersion x.text) ≤ 0) ∧
    ∀ x y z : Release, compareVersions (parseVersion x.text) (parseVersion y.text) ≤ 0 →
      compareVersions (parseVersion y.text) (parseVersion z.text) ≤ 0 →
        compareVersions (parseVersion x.text) (parseVersion z.text) ≤ 0 := by
  refine ⟨faithful_iff r, checkVersion_iff r whole, ?_, ?_⟩
  · intro x y
    rw [compareVersions_le_zero_iff, compareVersions_le_zero_iff]
    exact le_total _ _
  · intro x y z first second
    rw [compareVersions_le_zero_iff] at first second ⊢
    exact first.trans second

/-- The tag of a package with a revision is never up to date, and two numbers above the safe
integers are taken for one. -/
theorem revision_outdated :
    checkVersion (execFile "add 0.3.18-1\n") "v0.3.18-1" = .updateAvailable ∧
      compareVersions (parseVersion "9007199254740993.0.0") (parseVersion "9007199254740992.0.0")
        = 0 := by
  decide +kernel

end VersionCheck
