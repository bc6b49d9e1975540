import Mathlib.Data.List.Basic
import Mathlib.Data.List.Forall2

/-!
# Patterns with groups

Regular expressions in the manner of a backtracking matcher: a pattern has an ordered list of
ways to read the front of an input, the first of which counts, and each of its groups keeps what
it has read. Repetition is of single characters, greedy or not.
-/

namespace Patterns

inductive Pattern where
  /-- one of some fixed texts -/
  | oneOf (words : List (List Char))
  /-- so many characters of a class -/
  | times (n : Nat) (allowed : Char → Bool)
  /-- any number of characters of a class -/
  | many (greedy : Bool) (allowed : Char → Bool)
  | seq (first second : Pattern)
  | group (inner : Pattern)
  /-- the end of the input -/
  | stop

/-- What a pattern has read, what is left and what its groups have read, in order. -/
structure Way where
  text : List Char
  rest : List Char
  groups : List (List Char)
  deriving DecidableEq, Repr

namespace Pattern

/-- The ways to read the front of an input, the preferred ones first. -/
def ways : Pattern → List Char → List Way
  | oneOf words, input =>
    (words.filter fun word => word.isPrefixOf input).map fun word =>
      ⟨word, input.drop word.length, []⟩
  | times n allowed, input =>
    if n ≤ input.length ∧ (input.take n).all allowed then [⟨input.take n, input.drop n, []⟩]
    else []
  | many greedy allowed, input =>
    let lengths := List.range ((input.takeWhile allowed).length + 1)
    (if greedy then lengths.reverse else lengths).map fun n =>
      ⟨input.take n, input.drop n, []⟩
  | seq first second, input =>
    (ways first input).flatMap fun w =>
      (ways second w.rest).map fun v => ⟨w.text ++ v.text, v.rest, w.groups ++ v.groups⟩
  | group inner, input => (ways inner input).map fun w => ⟨w.text, w.rest, w.text :: w.groups⟩
  | stop, input => if input = [] then [⟨[], [], []⟩] else []

/-- A match at the start of the input. -/
def matchStart (p : Pattern) (input : List Char) : Option Way := (ways p input).head?

/-- The first match in the input. -/
def search (p : Pattern) : List Char → Option Way
  | [] => matchStart p []
  | c :: rest => (matchStart p (c :: rest)).or (search p rest)

/-- Characters of a class, at least one. -/
def atLeastOne (greedy : Bool) (allowed : Char → Bool) : Pattern :=
  seq (times 1 allowed) (many greedy allowed)

def word (text : String) : Pattern := oneOf [text.toList]

/-- The pattern reads a text in front of a rest, with these groups. -/
def Reads : Pattern → List Char → List Char → List (List Char) → Prop
  | oneOf words, text, _, groups => text ∈ words ∧ groups = []
  | times n allowed, text, _, groups =>
    text.length = n ∧ (∀ c ∈ text, allowed c = true) ∧ groups = []
  | many _ allowed, text, _, groups => (∀ c ∈ text, allowed c = true) ∧ groups = []
  | seq first second, text, rest, groups =>
    ∃ front back inFront inBack, text = front ++ back ∧ groups = inFront ++ inBack ∧
      Reads first front (back ++ rest) inFront ∧ Reads second back rest inBack
  | group inner, text, rest, groups => ∃ inside, groups = text :: inside ∧
      Reads inner text rest inside
  | stop, text, rest, groups => text = [] ∧ rest = [] ∧ groups = []

theorem le_takeWhile_iff {allowed : Char → Bool} {input : List Char} {n : Nat} :
    n ≤ (input.takeWhile allowed).length ↔
      n ≤ input.length ∧ ∀ c ∈ input.take n, allowed c = true := by
  induction input generalizing n with
  | nil => simp
  | cons c rest ih =>
    cases n with
    | zero => simp
    | succ n =>
      rw [List.takeWhile_cons, List.take_succ_cons, List.forall_mem_cons]
      split
      · next yes =>
        rw [List.length_cons, List.length_cons, Nat.succ_le_succ_iff, ih, Nat.succ_le_succ_iff]
        exact and_congr_right fun _ => (and_iff_right yes).symm
      · next no => simp [no]

/-- The matcher finds what the pattern reads, and nothing else. -/
theorem mem_ways {p : Pattern} {input : List Char} {w : Way} :
    w ∈ ways p input ↔ input = w.text ++ w.rest ∧ Reads p w.text w.rest w.groups := by
  induction p generalizing input w with
  | oneOf words =>
    obtain ⟨text, rest, groups⟩ := w
    simp only [ways, List.mem_map, List.mem_filter, List.isPrefixOf_iff_prefix, Way.mk.injEq,
      Reads]
    constructor
    · rintro ⟨word, ⟨member, back, rfl⟩, rfl, rfl, rfl⟩
      exact ⟨by rw [List.drop_left], member, rfl⟩
    · rintro ⟨rfl, member, rfl⟩
      exact ⟨text, ⟨member, List.prefix_append text rest⟩, rfl, List.drop_left, rfl⟩
  | times n allowed =>
    obtain ⟨text, rest, groups⟩ := w
    simp only [ways, Reads]
    constructor
    · intro member
      split at member
      · next fits =>
        cases List.mem_singleton.mp member
        exact ⟨(List.take_append_drop n input).symm, List.length_take_of_le fits.1,
          List.all_eq_true.mp fits.2, rfl⟩
      · cases member
    · rintro ⟨rfl, rfl, all, rfl⟩
      rw [if_pos ⟨by simp, by simpa using all⟩, List.take_left, List.drop_left]
      exact List.mem_singleton_self _
  | many greedy allowed =>
    obtain ⟨text, rest, groups⟩ := w
    have order : ∀ n, n ∈ (if greedy = true then
        (List.range ((input.takeWhile allowed).length + 1)).reverse
        else List.range ((input.takeWhile allowed).length + 1)) ↔
          n ≤ input.length ∧ ∀ c ∈ input.take n, allowed c = true := by
      intro n
      rw [← le_takeWhile_iff, ← Nat.lt_succ_iff]
      split
      · rw [List.mem_reverse, List.mem_range]
      · rw [List.mem_range]
    simp only [ways, List.mem_map, order, Way.mk.injEq, Reads]
    constructor
    · rintro ⟨n, ⟨-, all⟩, rfl, rfl, rfl⟩
      exact ⟨(List.take_append_drop n input).symm, all, rfl⟩
    · rintro ⟨rfl, all, rfl⟩
      exact ⟨text.length, ⟨by simp, by rwa [List.take_left]⟩, List.take_left, List.drop_left, rfl⟩
  | seq first second ihFirst ihSecond =>
    obtain ⟨text, rest, groups⟩ := w
    simp only [ways, List.mem_flatMap, List.mem_map, ihFirst, ihSecond, Way.mk.injEq, Reads]
    constructor
    · rintro ⟨⟨front, middle, inFront⟩, ⟨rfl, readsFirst⟩, ⟨back, last, inBack⟩,
        ⟨split, readsSecond⟩, rfl, rfl, rfl⟩
      dsimp only at split readsFirst readsSecond
      subst split
      exact ⟨by simp, front, back, inFront, inBack, rfl, rfl, readsFirst, readsSecond⟩
    · rintro ⟨rfl, front, back, inFront, inBack, rfl, rfl, readsFirst, readsSecond⟩
      exact ⟨⟨front, back ++ rest, inFront⟩, ⟨by simp, readsFirst⟩, ⟨back, rest, inBack⟩,
        ⟨rfl, readsSecond⟩, rfl, rfl, rfl⟩
  | group inner ih =>
    obtain ⟨text, rest, groups⟩ := w
    simp only [ways, List.mem_map, ih, Way.mk.injEq, Reads]
    constructor
    · rintro ⟨⟨text, rest, inside⟩, ⟨split, reads⟩, rfl, rfl, rfl⟩
      exact ⟨split, inside, rfl, reads⟩
    · rintro ⟨split, inside, rfl, reads⟩
      exact ⟨⟨text, rest, inside⟩, ⟨split, reads⟩, rfl, rfl, rfl⟩
  | stop =>
    obtain ⟨text, rest, groups⟩ := w
    simp only [ways, Reads]
    constructor
    · intro member
      split at member
      · next ended =>
        cases List.mem_singleton.mp member
        exact ⟨ended, rfl, rfl, rfl⟩
      · cases member
    · rintro ⟨rfl, rfl, rfl, rfl⟩
      simp

theorem matchStart_sound {p : Pattern} {input : List Char} {w : Way}
    (found : matchStart p input = some w) :
    input = w.text ++ w.rest ∧ Reads p w.text w.rest w.groups :=
  mem_ways.mp (List.mem_of_mem_head? found)

/-- A match that is found is one. -/
theorem search_sound {p : Pattern} {input : List Char} {w : Way}
    (found : search p input = some w) :
    ∃ before, input = before ++ (w.text ++ w.rest) ∧ Reads p w.text w.rest w.groups := by
  induction input with
  | nil => exact ⟨[], matchStart_sound found⟩
  | cons c rest ih =>
    rw [search] at found
    cases here : matchStart p (c :: rest) with
    | some first =>
      rw [here] at found
      cases found
      exact ⟨[], matchStart_sound here⟩
    | none =>
      rw [here] at found
      obtain ⟨before, split, reads⟩ := ih found
      exact ⟨c :: before, by rw [split, List.cons_append], reads⟩

/-- Whatever the pattern reads, the word is in it. -/
def Needs (p : Pattern) (word : List Char) : Prop :=
  ∀ text rest groups, Reads p text rest groups → word <:+: text

theorem needs_word (text : String) : Needs (word text) text.toList := by
  rintro read rest groups ⟨member, -⟩
  obtain rfl : read = text.toList := List.mem_singleton.mp member
  exact List.infix_refl _

theorem Needs.seq_left {first second : Pattern} {word : List Char} (needs : Needs first word) :
    Needs (seq first second) word := by
  rintro text rest groups ⟨front, back, inFront, inBack, rfl, -, reads, -⟩
  exact (needs front _ _ reads).trans (List.prefix_append front back).isInfix

theorem Needs.seq_right {first second : Pattern} {word : List Char} (needs : Needs second word) :
    Needs (seq first second) word := by
  rintro text rest groups ⟨front, back, inFront, inBack, rfl, -, -, reads⟩
  exact (needs back _ _ reads).trans (List.suffix_append front back).isInfix

theorem search_eq_none {p : Pattern} {word input : List Char} (needs : Needs p word)
    (absent : ¬ word <:+: input) : search p input = none := by
  cases found : search p input with
  | none => rfl
  | some w =>
    obtain ⟨before, rfl, reads⟩ := search_sound found
    refine absurd ((needs _ _ _ reads).trans ?_) absent
    exact (List.prefix_append w.text w.rest).isInfix.trans (List.suffix_append before _).isInfix

/-- The length of what a pattern reads, where it is fixed. -/
def width : Pattern → Option Nat
  | oneOf [word] => some word.length
  | oneOf _ => none
  | times n _ => some n
  | many _ _ => none
  | seq first second => (width first).bind fun n => (width second).map fun m => n + m
  | group inner => width inner
  | stop => some 0

def groupWidths : Pattern → List (Option Nat)
  | seq first second => groupWidths first ++ groupWidths second
  | group inner => width inner :: groupWidths inner
  | _ => []

theorem Reads.length {p : Pattern} {text rest : List Char} {groups : List (List Char)}
    (reads : Reads p text rest groups) {n : Nat} (fixed : width p = some n) :
    text.length = n := by
  induction p generalizing text rest groups n with
  | oneOf words =>
    match words, fixed with
    | [word], fixed =>
      cases fixed
      rw [List.mem_singleton.mp reads.1]
  | times m allowed =>
    cases fixed
    exact reads.1
  | many greedy allowed => cases fixed
  | seq first second ihFirst ihSecond =>
    obtain ⟨front, back, inFront, inBack, rfl, -, readsFirst, readsSecond⟩ := reads
    obtain ⟨k, fixedFirst, others⟩ := Option.bind_eq_some_iff.mp fixed
    obtain ⟨m, fixedSecond, rfl⟩ := Option.map_eq_some_iff.mp others
    rw [List.length_append, ihFirst readsFirst fixedFirst, ihSecond readsSecond fixedSecond]
  | group inner ih =>
    obtain ⟨inside, -, reads⟩ := reads
    exact ih reads fixed
  | stop =>
    cases fixed
    rw [reads.1]
    rfl

/-- Each group has the size of its pattern. -/
theorem Reads.groups {p : Pattern} {text rest : List Char} {groups : List (List Char)}
    (reads : Reads p text rest groups) :
    List.Forall₂ (fun g size => ∀ n, size = some n → g.length = n) groups
      (groupWidths p) := by
  induction p generalizing text rest groups with
  | oneOf words =>
    rw [reads.2]
    exact .nil
  | times m allowed =>
    rw [reads.2.2]
    exact .nil
  | many greedy allowed =>
    rw [reads.2]
    exact .nil
  | seq first second ihFirst ihSecond =>
    obtain ⟨front, back, inFront, inBack, -, rfl, readsFirst, readsSecond⟩ := reads
    exact List.rel_append (ihFirst readsFirst) (ihSecond readsSecond)
  | group inner ih =>
    obtain ⟨inside, rfl, reads⟩ := reads
    exact .cons (fun n fixed => reads.length fixed) (ih reads)
  | stop =>
    rw [reads.2.2]
    exact .nil

/-- What a group of fixed size keeps has that size. -/
theorem Reads.group_size {p : Pattern} {text rest : List Char} {groups : List (List Char)}
    (reads : Reads p text rest groups) {i n : Nat}
    (sized : (groupWidths p)[i]? = some (some n)) : ∃ g, groups[i]? = some g ∧ g.length = n := by
  have sizes := reads.groups
  obtain ⟨short, at_i⟩ := List.getElem?_eq_some_iff.mp sized
  have present : i < groups.length := sizes.length_eq ▸ short
  exact ⟨groups[i], List.getElem?_eq_getElem present, sizes.get present short n at_i⟩

end Pattern

end Patterns
