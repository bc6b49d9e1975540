import AddMessenger.Delimited
import AddMessenger.Protocol
import AddMessenger.Tables

/-!
# The text of a JSON value

The compact form that `serde_json` writes, with the text of numbers as a parameter. In front of
a character that no scalar has, the text determines the value and where it ends.
-/

namespace JsonText

open ByteStrings Delimited Protocol Tables

/-- The characters with an escape of their own. -/
def shortEscapes : List (Char × Char) := [
  ('"', '"'), ('\\', '\\'), (Char.ofNat 8, 'b'), (Char.ofNat 9, 't'), (Char.ofNat 10, 'n'),
  (Char.ofNat 12, 'f'), (Char.ofNat 13, 'r')]

def shortEscape (c : Char) : Option Char := shortEscapes.lookup c

def escape (c : Char) : List Char :=
  match shortEscape c with
  | some short => ['\\', short]
  | none =>
    if c.toNat < 32 then
      ['\\', 'u', '0', '0', hexDigit (UInt8.ofNat (c.toNat / 16)),
        hexDigit (UInt8.ofNat (c.toNat % 16))]
    else [c]

def quoted (text : String) : List Char := '"' :: closed escape '"' text.toList

mutual

def textOf (numberText : Number → List Char) : Json → List Char
  | .null => ['n', 'u', 'l', 'l']
  | .bool true => ['t', 'r', 'u', 'e']
  | .bool false => ['f', 'a', 'l', 's', 'e']
  | .number n => numberText n
  | .string text => quoted text
  | .array [] => ['[', ']']
  | .array (item :: rest) => '[' :: (textOf numberText item ++ itemsText numberText rest)
  | .object [] => ['\x7b', '\x7d']
  | .object (field :: rest) =>
    '\x7b' :: (fieldText numberText field ++ fieldsText numberText rest)
termination_by structural j => j

def itemsText (numberText : Number → List Char) : List Json → List Char
  | [] => [']']
  | item :: rest => ',' :: (textOf numberText item ++ itemsText numberText rest)
termination_by structural l => l

def fieldText (numberText : Number → List Char) : String × Json → List Char
  | (name, value) => quoted name ++ ':' :: textOf numberText value
termination_by structural p => p

def fieldsText (numberText : Number → List Char) : List (String × Json) → List Char
  | [] => ['\x7d']
  | field :: rest => ',' :: (fieldText numberText field ++ fieldsText numberText rest)
termination_by structural l => l

end

/-- The characters around values, and the one that other texts use as a separator. -/
def special (c : Char) : Bool := c ∈ ['"', '[', ']', '\x7b', '\x7d', ',', ':', '|']

/-- What is known of the text of a number. -/
structure NumberTexts (numberText : Number → List Char) : Prop where
  injective : Function.Injective numberText
  plain : ∀ n, ∀ c ∈ numberText n, special c = false
  begins : ∀ n, ∃ c rest, numberText n = c :: rest ∧ (c.isDigit = true ∨ c = '-')

theorem shortEscape_injective {c d short : Char} (ofC : shortEscape c = some short)
    (ofD : shortEscape d = some short) : c = d := by
  have distinct : ∀ p ∈ shortEscapes, ∀ q ∈ shortEscapes, p.2 = q.2 → p.1 = q.1 := by decide
  exact distinct _ (mem_of_lookup ofC) _ (mem_of_lookup ofD) rfl

theorem shortEscape_ne_u (c : Char) : shortEscape c ≠ some 'u' := by
  intro isU
  have other : ∀ p ∈ shortEscapes, p.2 ≠ 'u' := by decide
  exact other _ (mem_of_lookup isU) rfl

theorem shortEscape_backslash : shortEscape '\\' = some '\\' := rfl

theorem shortEscape_quote : shortEscape '"' = some '"' := rfl

/-- The three forms of an escape. -/
theorem escape_cases (c : Char) :
    (∃ short, shortEscape c = some short ∧ escape c = ['\\', short]) ∨
    (c.toNat < 32 ∧ escape c = ['\\', 'u', '0', '0', hexDigit (UInt8.ofNat (c.toNat / 16)),
      hexDigit (UInt8.ofNat (c.toNat % 16))]) ∨
    (shortEscape c = none ∧ escape c = [c]) := by
  unfold escape
  cases isShort : shortEscape c with
  | some short => exact .inl ⟨short, rfl, rfl⟩
  | none =>
    by_cases control : c.toNat < 32
    · exact .inr (.inl ⟨control, if_pos control⟩)
    · exact .inr (.inr ⟨rfl, if_neg control⟩)

theorem hexDigit_injective {n m : Nat} (smallN : n < 16) (smallM : m < 16)
    (same : hexDigit (UInt8.ofNat n) = hexDigit (UInt8.ofNat m)) : n = m := by
  have values := congrArg hexValue same
  rw [hexValue_hexDigit smallN, hexValue_hexDigit smallM, Option.some.injEq] at values
  have numbers := congrArg UInt8.toNat values
  rw [UInt8.toNat_ofNat', UInt8.toNat_ofNat'] at numbers
  omega

theorem escape_delimits : Delimits Anything escape := by
  intro c d a b _ _ same
  rcases escape_cases c with ⟨short, isShort, text⟩ | ⟨control, text⟩ | ⟨plain, text⟩ <;>
    rcases escape_cases d with ⟨short', isShort', text'⟩ | ⟨control', text'⟩ | ⟨plain', text'⟩ <;>
    rw [text, text'] at same <;>
    simp only [List.cons_append, List.nil_append, List.cons.injEq, true_and] at same
  · obtain ⟨rfl, rfl⟩ := same
    exact ⟨shortEscape_injective isShort isShort', rfl⟩
  · exact absurd (same.1 ▸ isShort) (shortEscape_ne_u c)
  · rw [← same.1, shortEscape_backslash] at plain'
    cases plain'
  · exact absurd (same.1 ▸ isShort') (shortEscape_ne_u d)
  · obtain ⟨high, low, rest⟩ := same
    have highs := hexDigit_injective (by omega) (by omega) high
    have lows := hexDigit_injective (by omega) (by omega) low
    exact ⟨Char.toNat_inj.mp (by omega), rest⟩
  · rw [← same.1, shortEscape_backslash] at plain'
    cases plain'
  · rw [same.1, shortEscape_backslash] at plain
    cases plain
  · rw [same.1, shortEscape_backslash] at plain
    cases plain
  · exact same

theorem escape_ne_quote (c : Char) (a b : List Char) : escape c ++ a ≠ '"' :: b := by
  intro same
  rcases escape_cases c with ⟨short, isShort, text⟩ | ⟨control, text⟩ | ⟨plain, text⟩ <;>
    rw [text] at same
  · exact absurd (List.cons.inj same).1 (by decide)
  · exact absurd (List.cons.inj same).1 (by decide)
  · rw [(List.cons.inj same).1, shortEscape_quote] at plain
    cases plain

/-- Nothing inside a quoted text ends it. -/
theorem quoted_delimits : Delimits Anything quoted := by
  intro text other a b _ _ same
  have inner : DelimitsAt Anything (closed escape '"') text.toList :=
    closed_delimits (fun c _ => escape_delimits c) escape_ne_quote (fun _ => trivial)
      fun _ _ => trivial
  obtain ⟨chars, rest⟩ := inner other.toList a b trivial trivial (List.cons.inj same).2
  exact ⟨String.toList_inj.mp chars, rest⟩

section

variable {numberText : Number → List Char}

theorem itemsText_eq (items : List Json) :
    itemsText numberText items = closed (fun item => ',' :: textOf numberText item) ']' items := by
  induction items with
  | nil => rfl
  | cons item rest ih => rw [itemsText, ih, closed, closed, List.flatMap_cons]; simp

theorem fieldsText_eq (fields : List (String × Json)) :
    fieldsText numberText fields =
      closed (fun field => ',' :: fieldText numberText field) '\x7d' fields := by
  induction fields with
  | nil => rfl
  | cons field rest ih => rw [fieldsText, ih, closed, closed, List.flatMap_cons]; simp

theorem textOf_array (items : List Json) :
    textOf numberText (.array items) =
      '[' :: separated (textOf numberText) ',' ']' items := by
  cases items with
  | nil => rfl
  | cons item rest => rw [textOf, itemsText_eq]; rfl

theorem textOf_object (fields : List (String × Json)) :
    textOf numberText (.object fields) =
      '\x7b' :: separated (fieldText numberText) ',' '\x7d' fields := by
  cases fields with
  | nil => rfl
  | cons field rest => rw [textOf, fieldsText_eq]; rfl

/-- The mark in front of a value. -/
def opening : Json → Option Char
  | .string _ => some '"'
  | .array _ => some '['
  | .object _ => some '\x7b'
  | _ => none

theorem textOf_begins (laws : NumberTexts numberText) (v : Json) :
    ∃ c rest, textOf numberText v = c :: rest ∧
      opening v = if special c = true then some c else none := by
  cases v with
  | null => exact ⟨_, _, rfl, rfl⟩
  | bool b => cases b <;> exact ⟨_, _, rfl, rfl⟩
  | number n =>
    obtain ⟨c, rest, text, -⟩ := laws.begins n
    have plain := laws.plain n c (by rw [text]; exact List.mem_cons_self)
    refine ⟨c, rest, text, ?_⟩
    rw [plain]
    rfl
  | string text => exact ⟨_, _, rfl, rfl⟩
  | array items => exact ⟨_, _, textOf_array items, rfl⟩
  | object fields => exact ⟨_, _, textOf_object fields, rfl⟩

theorem opening_eq (laws : NumberTexts numberText) {v w : Json} {a b : List Char}
    (same : textOf numberText v ++ a = textOf numberText w ++ b) : opening v = opening w := by
  obtain ⟨c, rest, text, opens⟩ := textOf_begins laws v
  obtain ⟨d, rest', text', opens'⟩ := textOf_begins laws w
  rw [text, text'] at same
  rw [opens, opens', (List.cons.inj same).1]

/-- The words, and the values that they stand for. -/
def word : Option Bool → List Char
  | none => ['n', 'u', 'l', 'l']
  | some true => ['t', 'r', 'u', 'e']
  | some false => ['f', 'a', 'l', 's', 'e']

def ofWord : Option Bool → Json
  | none => .null
  | some b => .bool b

theorem word_injective {k l : Option Bool} (same : word k = word l) : k = l := by
  revert k l
  decide

theorem word_plain (k : Option Bool) : ∀ c ∈ word k, special c = false := by
  rcases k with _ | _ | _ <;> simp [word, special]

theorem number_ne_word (laws : NumberTexts numberText) (n : Number) (k : Option Bool) :
    numberText n ≠ word k := by
  intro same
  obtain ⟨c, rest, text, starts⟩ := laws.begins n
  have letter : ∀ c ∈ (word k).head?, c.isDigit = false ∧ c ≠ '-' := by
    rcases k with _ | _ | _ <;> simp [word]
  obtain ⟨noDigit, noMinus⟩ := letter c (by rw [← same, text]; rfl)
  rcases starts with digit | minus
  · rw [noDigit] at digit
    cases digit
  · exact noMinus minus

/-- A value without a mark in front is a word or a number. -/
theorem scalar_cases {v : Json} (scalar : opening v = none) :
    (∃ k, v = ofWord k ∧ textOf numberText v = word k) ∨
      ∃ n, v = .number n ∧ textOf numberText v = numberText n := by
  cases v with
  | null => exact .inl ⟨none, rfl, rfl⟩
  | bool b => cases b <;> exact .inl ⟨some _, rfl, rfl⟩
  | number n => exact .inr ⟨n, rfl, rfl⟩
  | string text => cases scalar
  | array items => cases scalar
  | object fields => cases scalar

theorem scalar_plain (laws : NumberTexts numberText) {v : Json} (scalar : opening v = none) :
    ∀ c ∈ textOf numberText v, ¬ special c = true := by
  intro c member
  rw [Bool.not_eq_true]
  rcases @scalar_cases numberText v scalar with ⟨k, -, text⟩ | ⟨n, -, text⟩
  · exact word_plain k c (text ▸ member)
  · exact laws.plain n c (text ▸ member)

theorem scalar_injective (laws : NumberTexts numberText) {v w : Json} (scalar : opening v = none)
    (scalar' : opening w = none) (same : textOf numberText v = textOf numberText w) : v = w := by
  rcases @scalar_cases numberText v scalar with ⟨k, rfl, text⟩ | ⟨n, rfl, text⟩ <;>
    rcases @scalar_cases numberText w scalar' with ⟨l, rfl, text'⟩ | ⟨m, rfl, text'⟩ <;>
    rw [text, text'] at same
  · rw [word_injective same]
  · exact absurd same.symm (number_ne_word laws m k)
  · exact absurd same (number_ne_word laws n l)
  · rw [laws.injective same]

/-- What follows a value inside another one, or in front of a separator. -/
abbrev Follows : List Char → Prop := StartsWith fun c => special c = true

theorem scalar_delimits (laws : NumberTexts numberText) {v : Json} (scalar : opening v = none) :
    DelimitsAt Follows (textOf numberText) v := by
  intro w a b followsA followsB same
  have scalar' : opening w = none := (opening_eq laws same).symm.trans scalar
  obtain ⟨texts, rest⟩ := append_inj_of_free (scalar_plain laws scalar)
    (scalar_plain laws scalar') followsA followsB same
  exact ⟨scalar_injective laws scalar scalar' texts, rest⟩

theorem fieldText_delimits {name : String} {value : Json}
    (delimits : DelimitsAt Follows (textOf numberText) value) :
    DelimitsAt Follows (fieldText numberText) (name, value) := by
  rintro ⟨other, value'⟩ a b followsA followsB same
  rw [fieldText, fieldText, List.append_assoc, List.append_assoc] at same
  obtain ⟨rfl, rest⟩ := quoted_delimits name other _ _ trivial trivial same
  obtain ⟨rfl, after⟩ := delimits value' a b followsA followsB (List.cons.inj rest).2
  exact ⟨rfl, after⟩

theorem textOf_ne_close (laws : NumberTexts numberText) {close : Char}
    (isSpecial : special close = true) (noMark : ∀ v, opening v ≠ some close) (v : Json)
    (a b : List Char) :
    textOf numberText v ++ a ≠ close :: b := by
  intro same
  obtain ⟨c, rest, text, opens⟩ := textOf_begins laws v
  rw [text] at same
  rw [(List.cons.inj same).1, if_pos isSpecial] at opens
  exact noMark v opens

/-- The text of a value ends where the value does. -/
theorem textOf_delimits (laws : NumberTexts numberText) :
    Delimits Follows (textOf numberText) := by
  refine @Json.rec (DelimitsAt Follows (textOf numberText))
    (fun items => ∀ v ∈ items, DelimitsAt Follows (textOf numberText) v)
    (fun fields => ∀ field ∈ fields, DelimitsAt Follows (fieldText numberText) field)
    (DelimitsAt Follows (fieldText numberText)) ?null ?bool ?number ?string ?array ?object
    ?noItems ?items ?noFields ?fields ?field
  case null => exact scalar_delimits laws rfl
  case bool => exact fun b => scalar_delimits laws rfl
  case number => exact fun n => scalar_delimits laws rfl
  case string =>
    intro text w a b _ _ same
    have marks := opening_eq laws same
    match w, marks with
    | .string other, _ =>
      obtain ⟨rfl, rest⟩ := quoted_delimits text other a b trivial trivial same
      exact ⟨rfl, rest⟩
  case array =>
    intro items each w a b _ _ same
    have marks := opening_eq laws same
    match w, marks with
    | .array others, _ =>
      rw [textOf_array, textOf_array] at same
      have list : DelimitsAt Anything (separated (textOf numberText) ',' ']') items :=
        separated_delimits each
          (textOf_ne_close laws rfl fun v => by cases v <;> simp [opening]) rfl rfl (by decide)
      obtain ⟨rfl, rest⟩ := list others a b trivial trivial (List.cons.inj same).2
      exact ⟨rfl, rest⟩
  case object =>
    intro fields each w a b _ _ same
    have marks := opening_eq laws same
    match w, marks with
    | .object others, _ =>
      rw [textOf_object, textOf_object] at same
      have list : DelimitsAt Anything (separated (fieldText numberText) ',' '\x7d') fields := by
        refine separated_delimits each ?_ rfl rfl (by decide)
        rintro ⟨name, value⟩ a b begins
        exact absurd (List.cons.inj begins).1 (by decide)
      obtain ⟨rfl, rest⟩ := list others a b trivial trivial (List.cons.inj same).2
      exact ⟨rfl, rest⟩
  case noItems => exact List.forall_mem_nil _
  case items => exact fun _ _ here later => List.forall_mem_cons.mpr ⟨here, later⟩
  case noFields => exact List.forall_mem_nil _
  case fields => exact fun _ _ here later => List.forall_mem_cons.mpr ⟨here, later⟩
  case field => exact fun _ _ delimits => fieldText_delimits delimits

end

def digits (n : Nat) : List Char := (toString n).toList

/-- A negative integer. `serde_json` has none in this form that is not below zero; here such a
one would have a sign more. -/
def negativeText (k : Int) : List Char :=
  if k < 0 then '-' :: digits k.natAbs else '-' :: '-' :: digits k.natAbs

/-- Integers in decimal, and the bits of a float in front of an exponent. -/
def decimalText : Number → List Char
  | .posInt n => digits n.toNat
  | .negInt n => negativeText n.toInt
  | .float bits => digits bits.toNat ++ ['e']

theorem isDigit_of_mem_digits {n : Nat} {c : Char} (member : c ∈ digits n) : c.isDigit = true :=
  isDigit_of_mem_toString member

theorem digits_injective {n m : Nat} (same : digits n = digits m) : n = m :=
  Nat.repr_injective (String.toList_inj.mp same)

theorem digits_begin (n : Nat) : ∃ c rest, digits n = c :: rest ∧ c.isDigit = true := by
  have nonempty : digits n ≠ [] := toList_toString_ne_nil n
  obtain ⟨c, rest, split⟩ := List.exists_cons_of_ne_nil nonempty
  have member : c ∈ digits n := by
    rw [split]
    exact List.mem_cons_self
  exact ⟨c, rest, split, isDigit_of_mem_digits member⟩

theorem minus_notMem_digits (n : Nat) : '-' ∉ digits n :=
  fun member => absurd (isDigit_of_mem_digits member) (by decide)

theorem e_notMem_digits (n : Nat) : 'e' ∉ digits n :=
  fun member => absurd (isDigit_of_mem_digits member) (by decide)

theorem digit_plain {c : Char} (digit : c.isDigit = true) : special c = false := by
  refine decide_eq_false fun isMark => ?_
  simp only [List.mem_cons, List.not_mem_nil, or_false] at isMark
  rcases isMark with rfl | rfl | rfl | rfl | rfl | rfl | rfl | rfl <;> cases digit

theorem digits_plain {n : Nat} {c : Char} (member : c ∈ digits n) : special c = false :=
  digit_plain (isDigit_of_mem_digits member)

theorem negativeText_injective {k l : Int} (same : negativeText k = negativeText l) : k = l := by
  unfold negativeText at same
  split at same <;> split at same
  · have sizes := digits_injective (List.cons.inj same).2
    omega
  · exact absurd ((List.cons.inj same).2 ▸ List.mem_cons_self) (minus_notMem_digits k.natAbs)
  · exact absurd ((List.cons.inj same).2 ▸ List.mem_cons_self) (minus_notMem_digits l.natAbs)
  · have sizes := digits_injective (List.cons.inj (List.cons.inj same).2).2
    omega

theorem negativeText_begin (k : Int) : ∃ rest, negativeText k = '-' :: rest := by
  unfold negativeText
  split <;> exact ⟨_, rfl⟩

theorem mem_negativeText {k : Int} {c : Char} (member : c ∈ negativeText k) :
    c = '-' ∨ c ∈ digits k.natAbs := by
  unfold negativeText at member
  split at member
  · exact List.mem_cons.mp member
  · rcases List.mem_cons.mp member with minus | later
    · exact .inl minus
    · exact List.mem_cons.mp later

theorem digits_ne_negativeText (n : Nat) (rest : List Char) (k : Int) :
    digits n ++ rest ≠ negativeText k := by
  obtain ⟨c, later, split, digit⟩ := digits_begin n
  obtain ⟨after, begins⟩ := negativeText_begin k
  intro same
  rw [split, begins] at same
  rw [(List.cons.inj same).1] at digit
  cases digit

theorem digits_ne_float (n m : Nat) : digits n ≠ digits m ++ ['e'] := by
  intro same
  exact e_notMem_digits n (same ▸ List.mem_append_right _ List.mem_cons_self)

theorem decimalText_injective : Function.Injective decimalText := by
  intro n m same
  cases n with
  | posInt n =>
    cases m with
    | posInt m => rw [UInt64.toNat_inj.mp (digits_injective same)]
    | negInt m => exact absurd ((List.append_nil _).trans same) (digits_ne_negativeText _ [] _)
    | float m => exact absurd same (digits_ne_float _ _)
  | negInt n =>
    cases m with
    | posInt m =>
      exact absurd ((List.append_nil _).trans same.symm) (digits_ne_negativeText _ [] _)
    | negInt m => rw [Int64.toInt_inj.mp (negativeText_injective same)]
    | float m => exact absurd same.symm (digits_ne_negativeText _ _ _)
  | float n =>
    cases m with
    | posInt m => exact absurd same.symm (digits_ne_float _ _)
    | negInt m => exact absurd same (digits_ne_negativeText _ _ _)
    | float m => rw [UInt64.toNat_inj.mp (digits_injective (List.append_cancel_right same))]

theorem decimalText_plain (n : Number) : ∀ c ∈ decimalText n, special c = false := by
  intro c member
  cases n with
  | posInt n => exact digits_plain member
  | negInt n =>
    rcases mem_negativeText member with rfl | digit
    · decide
    · exact digits_plain digit
  | float bits =>
    rcases List.mem_append.mp member with digit | mark
    · exact digits_plain digit
    · rw [List.mem_singleton.mp mark]
      decide

theorem decimalText_laws : NumberTexts decimalText where
  injective := decimalText_injective
  plain := decimalText_plain
  begins := by
    intro n
    cases n with
    | posInt n =>
      obtain ⟨c, rest, text, digit⟩ := digits_begin n.toNat
      exact ⟨c, rest, text, .inl digit⟩
    | negInt n =>
      obtain ⟨rest, text⟩ := negativeText_begin n.toInt
      exact ⟨'-', rest, text, .inr rfl⟩
    | float bits =>
      obtain ⟨c, rest, text, digit⟩ := digits_begin bits.toNat
      exact ⟨c, rest ++ ['e'], by rw [decimalText, text, List.cons_append], .inl digit⟩

end JsonText
