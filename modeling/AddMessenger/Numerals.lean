import AddMessenger.ByteStrings
import AddMessenger.Trimming

/-!
# Numbers as text

Trimmed text and decimal integers as the standard library of Rust reads them: a sign may stand in
front, and a value outside of the range of the type is no number.
-/

namespace Numerals

open ByteStrings Trimming

/-- The characters with the property `White_Space`. -/
def isWhitespace (c : Char) : Bool :=
  (9 ≤ c.toNat && c.toNat ≤ 13) || (0x2000 ≤ c.toNat && c.toNat ≤ 0x200a) ||
    [0x20, 0x85, 0xa0, 0x1680, 0x2028, 0x2029, 0x202f, 0x205f, 0x3000].contains c.toNat

def trimmed (text : String) : List Char := trim isWhitespace text.toList

/-- The sign is split off; at an unsigned type a minus is no sign. -/
def splitSign (signed : Bool) : List Char → Bool × List Char
  | '+' :: rest => (false, rest)
  | '-' :: rest => if signed then (true, rest) else (false, '-' :: rest)
  | text => (false, text)

def integerOf (signed : Bool) (text : List Char) : Option ℤ :=
  let (negative, digits) := splitSign signed text
  if digits ≠ [] ∧ digits.all Char.isDigit then
    let magnitude : ℤ := Nat.ofDigitChars 10 digits 0
    some (if negative then -magnitude else magnitude)
  else none

/-- `parse` at an integer type from `lo` up to `hi`. -/
def parseInteger (lo hi : ℤ) (text : List Char) : Option ℤ :=
  (integerOf (lo < 0) text).filter fun value => lo ≤ value ∧ value ≤ hi

theorem toNat_isDigit {c : Char} (digit : c.isDigit = true) : 48 ≤ c.toNat ∧ c.toNat ≤ 57 := by
  simpa [Char.isDigit, UInt32.le_iff_toNat_le] using digit

theorem isWhitespace_digit {c : Char} (digit : c.isDigit = true) : isWhitespace c = false := by
  have range := toNat_isDigit digit
  simp [isWhitespace]
  omega

theorem splitSign_digits {signed : Bool} {text : List Char}
    (digits : ∀ c ∈ text, c.isDigit = true) : splitSign signed text = (false, text) := by
  unfold splitSign
  split
  · exact absurd (digits '+' List.mem_cons_self) (by decide)
  · exact absurd (digits '-' List.mem_cons_self) (by decide)
  · rfl

theorem integerOf_toString (signed : Bool) (n : ℕ) :
    integerOf signed (toString n).toList = some (n : ℤ) := by
  have digits : ∀ c ∈ (toString n).toList, c.isDigit = true := fun c => isDigit_of_mem_toString
  have value : Nat.ofDigitChars 10 (toString n).toList 0 = n := by
    simpa only [toList_toString] using @Nat.ofDigitChars_ten_toDigits n
  rw [integerOf, splitSign_digits digits]
  simp only [value]
  exact if_pos ⟨toList_toString_ne_nil n, List.all_eq_true.mpr digits⟩

/-- A number is read back from its own text. -/
theorem parseInteger_toString {lo hi : ℤ} {n : ℕ} (low : lo ≤ n) (high : n ≤ hi) :
    parseInteger lo hi (toString n).toList = some (n : ℤ) := by
  rw [parseInteger, integerOf_toString]
  exact Option.filter_eq_some_iff.mpr ⟨rfl, by simp [low, high]⟩

/-- A line of digits without what stands around them. -/
theorem trim_line {digits : List Char} (some_digit : digits ≠ [])
    (all : ∀ c ∈ digits, c.isDigit = true) : trim isWhitespace (digits ++ ['\n']) = digits := by
  have front : (digits ++ ['\n']).dropWhile isWhitespace = digits ++ ['\n'] := by
    cases digits with
    | nil => exact absurd rfl some_digit
    | cons c rest =>
      have plain := isWhitespace_digit (all c List.mem_cons_self)
      exact List.dropWhile_cons_of_neg (by simp [plain])
  have back : (digits ++ ['\n']).rdropWhile isWhitespace = digits.rdropWhile isWhitespace :=
    List.rdropWhile_concat_pos _ _ _ rfl
  have whole : digits.rdropWhile isWhitespace = digits := by
    refine List.rdropWhile_eq_self_iff.mpr fun some_digit => ?_
    simp [isWhitespace_digit (all _ (List.getLast_mem some_digit))]
  simp only [trim, front, back, whole]

theorem trimmed_line (n : ℕ) : trimmed (toString n ++ "\n") = (toString n).toList := by
  have split : (toString n ++ "\n").toList = (toString n).toList ++ ['\n'] := by simp
  rw [trimmed, split]
  exact trim_line (toList_toString_ne_nil n) fun c => isDigit_of_mem_toString

end Numerals
