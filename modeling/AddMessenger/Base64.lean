import Mathlib.Data.List.Basic

/-!
# Reading base64 as a browser does

`atob` of the web platform: padding may be missing, and what is read is as long as the characters
say.
-/

namespace Base64

/-- The six bits of a character. -/
def sextet (c : Char) : Option Nat :=
  if c.isUpper then some (c.toNat - 65)
  else if c.isLower then some (c.toNat - 71)
  else if c.isDigit then some (c.toNat + 4)
  else if c = '+' then some 62
  else if c = '/' then some 63
  else none

/-- A text whose length is a multiple of four loses up to two marks of padding. -/
def unpadded (text : List Char) : List Char :=
  if text.length % 4 = 0 then
    match text.reverse with
    | '=' :: '=' :: rest => rest.reverse
    | '=' :: rest => rest.reverse
    | _ => text
  else text

/-- Four times six bits are three bytes; the bits left over at the end are dropped. -/
def packed : List Nat → List UInt8
  | a :: b :: c :: d :: rest =>
    UInt8.ofNat (a * 4 + b / 16) :: UInt8.ofNat (b * 16 + c / 4) :: UInt8.ofNat (c * 64 + d) ::
      packed rest
  | [a, b, c] => [UInt8.ofNat (a * 4 + b / 16), UInt8.ofNat (b * 16 + c / 4)]
  | [a, b] => [UInt8.ofNat (a * 4 + b / 16)]
  | _ => []

def atob (text : List Char) : Option (List UInt8) :=
  if (unpadded text).length % 4 = 1 then none else ((unpadded text).mapM sextet).map packed

/-- Characters that can be read: of the alphabet, and not one behind full groups of four. -/
def readable (text : List Char) : Bool :=
  (unpadded text).length % 4 ≠ 1 && (unpadded text).all fun c => (sextet c).isSome

def byteCount (text : List Char) : Nat := (unpadded text).length * 3 / 4

theorem length_packed (bits : List Nat) : (packed bits).length = bits.length * 3 / 4 := by
  fun_induction packed bits with
  | case1 a b c d rest ih =>
    simp only [List.length_cons, ih]
    omega
  | case2 => simp
  | case3 => simp
  | case4 bits long two three =>
    match bits with
    | [] => rfl
    | [_] => simp
    | [a, b] => exact absurd rfl (three a b)
    | [a, b, c] => exact absurd rfl (two a b c)
    | a :: b :: c :: d :: rest => exact absurd rfl (long a b c d rest)

theorem mapM_length {α β : Type} (f : α → Option β) (l : List α) :
    (l.mapM f).map List.length = if l.all fun x => (f x).isSome then some l.length else none := by
  induction l with
  | nil => rfl
  | cons x rest ih =>
    rw [List.mapM_cons, List.all_cons]
    cases here : f x with
    | none => rfl
    | some y =>
      cases later : rest.mapM f with
      | none =>
        rw [later] at ih
        split at ih
        · cases ih
        · next partly => simp [partly]
      | some ys =>
        rw [later] at ih
        split at ih
        · next whole =>
          have lengths : ys.length = rest.length := Option.some.inj ih
          simp [whole, lengths]
        · cases ih

/-- How many bytes are read. -/
theorem length_atob (text : List Char) :
    (atob text).map List.length = if readable text then some (byteCount text) else none := by
  have lengths := mapM_length sextet (unpadded text)
  rw [atob, readable, byteCount]
  by_cases single : (unpadded text).length % 4 = 1
  · simp [single]
  · rw [if_neg single, Option.map_map]
    cases read : (unpadded text).mapM sextet with
    | none =>
      rw [read] at lengths
      split at lengths
      · cases lengths
      · next partly => simp [partly]
    | some bits =>
      rw [read] at lengths
      split at lengths
      · next whole =>
        have same : bits.length = (unpadded text).length := Option.some.inj lengths
        simp [single, whole, length_packed, same]
      · cases lengths

end Base64
