import Mathlib

/-!
# Byte strings

Texts as their UTF-8 bytes, hexadecimal text, 16-bit lengths in big-endian order,
64-bit counters (their decimal text and their maximum), and fields joined by a separator.
-/

namespace ByteStrings

abbrev Bytes := List UInt8

def asBytes (text : String) : Bytes := text.toByteArray.data.toList

/-- The text of a byte string, if the bytes are UTF-8. -/
def fromUtf8 (bytes : Bytes) : Option String := String.fromUTF8? ⟨bytes.toArray⟩

@[simp] theorem fromUtf8_asBytes (text : String) : fromUtf8 (asBytes text) = some text := by
  simp only [fromUtf8, asBytes, Array.toArray_toList, String.fromUTF8?]
  exact dif_pos text.isValidUTF8

/-- The bytes of a text are what it was read from. -/
theorem fromUtf8_eq_some {bytes : Bytes} {text : String} (read : fromUtf8 bytes = some text) :
    bytes = asBytes text := by
  simp only [fromUtf8, String.fromUTF8?] at read
  split at read
  · cases read
    rfl
  · cases read

theorem asBytes_append (a b : String) : asBytes (a ++ b) = asBytes a ++ asBytes b := by
  simp [asBytes]

theorem asBytes_injective {a b : String} (same : asBytes a = asBytes b) : a = b := by
  have read := congrArg fromUtf8 same
  rwa [fromUtf8_asBytes, fromUtf8_asBytes, Option.some.injEq] at read

/-- An ASCII character is its own byte. -/
theorem asBytes_ascii {l : List Char} (ascii : ∀ c ∈ l, c.toNat ≤ 127) :
    asBytes (String.ofList l) = l.map fun c => UInt8.ofNat c.toNat := by
  have chars : l.utf8Encode.data.toList = l.map fun c => UInt8.ofNat c.toNat := by
    induction l with
    | nil => rfl
    | cons c rest ih =>
      obtain ⟨here, later⟩ := List.forall_mem_cons.mp ascii
      have low : c.val.toNat ≤ 127 := here
      have single : String.utf8EncodeChar c = [UInt8.ofNat c.toNat] := by
        rw [String.utf8EncodeChar, if_pos low]
        rfl
      rw [List.utf8Encode_cons, List.utf8Encode_singleton, single]
      simpa using ih later
  rw [← chars]
  rfl

/-- A character takes at least one byte. -/
theorem length_le_asBytes (text : String) : text.toList.length ≤ (asBytes text).length := by
  have chars : ∀ l : List Char, l.length ≤ l.utf8Encode.data.toList.length := by
    intro l
    induction l with
    | nil => exact Nat.zero_le _
    | cons c rest ih =>
      have one := c.utf8Size_pos
      rw [List.utf8Encode_cons, List.utf8Encode_singleton]
      simp at ih ⊢
      omega
  have bytes := chars text.toList
  rwa [String.utf8Encode_toList] at bytes

def hexDigit (n : UInt8) : Char :=
  if n < 10 then Char.ofNat (48 + n.toNat) else Char.ofNat (87 + n.toNat)

def hexEncode (b : Bytes) : String :=
  String.ofList (b.flatMap fun x => [hexDigit (x / 16), hexDigit (x % 16)])

theorem hexEncode_toList_length (b : Bytes) : (hexEncode b).toList.length = 2 * b.length := by
  induction b with
  | nil => rfl
  | cons x rest ih =>
    simp only [hexEncode, String.toList_ofList] at ih ⊢
    simp only [List.flatMap_cons, List.length_append, List.length_cons, List.length_nil, ih]
    omega

def hexValue (c : Char) : Option UInt8 :=
  if '0' ≤ c ∧ c ≤ '9' then some (UInt8.ofNat (c.toNat - 48))
  else if 'a' ≤ c ∧ c ≤ 'f' then some (UInt8.ofNat (c.toNat - 87))
  else if 'A' ≤ c ∧ c ≤ 'F' then some (UInt8.ofNat (c.toNat - 55))
  else none

def hexBytes : List Char → Option Bytes
  | [] => some []
  | [_] => none
  | hi :: lo :: rest =>
    (hexValue hi).bind fun h => (hexValue lo).bind fun l =>
      (hexBytes rest).map fun bytes => (h * 16 + l) :: bytes

/-- The bytes of a hexadecimal text of either case. -/
def hexDecode (text : String) : Option Bytes := hexBytes text.toList

theorem hexValue_hexDigit {n : Nat} (small : n < 16) :
    hexValue (hexDigit (UInt8.ofNat n)) = some (UInt8.ofNat n) := by
  interval_cases n <;> rfl

theorem hexValue_div (x : UInt8) : hexValue (hexDigit (x / 16)) = some (x / 16) := by
  have lt := x.toNat_lt
  have nibble : x / 16 = UInt8.ofNat (x.toNat / 16) := UInt8.toNat_inj.mp (by simp; omega)
  rw [nibble]
  exact hexValue_hexDigit (by omega)

theorem hexValue_mod (x : UInt8) : hexValue (hexDigit (x % 16)) = some (x % 16) := by
  have lt := x.toNat_lt
  have nibble : x % 16 = UInt8.ofNat (x.toNat % 16) := UInt8.toNat_inj.mp (by simp; omega)
  rw [nibble]
  exact hexValue_hexDigit (by omega)

theorem hexValue_of_mem {b : Bytes} {c : Char} (member : c ∈ (hexEncode b).toList) :
    (hexValue c).isSome = true := by
  rw [hexEncode, String.toList_ofList] at member
  obtain ⟨x, -, digit⟩ := List.mem_flatMap.mp member
  rcases List.mem_cons.mp digit with rfl | digit
  · rw [hexValue_div]
    rfl
  · rw [List.mem_singleton.mp digit, hexValue_mod]
    rfl

theorem hexValue_bounds {c : Char} (digit : (hexValue c).isSome = true) :
    48 ≤ c.toNat ∧ c.toNat ≤ 102 := by
  simp only [hexValue, Char.le_def, UInt32.le_iff_toNat_le] at digit
  change 48 ≤ c.val.toNat ∧ c.val.toNat ≤ 102
  split_ifs at digit with decimal lower upper
  · exact ⟨decimal.1, le_trans decimal.2 (by decide)⟩
  · exact ⟨le_trans (by decide) lower.1, lower.2⟩
  · exact ⟨le_trans (by decide) upper.1, le_trans upper.2 (by decide)⟩
  · cases digit

@[simp] theorem hexDecode_hexEncode (bytes : Bytes) : hexDecode (hexEncode bytes) = some bytes := by
  rw [hexDecode, hexEncode, String.toList_ofList]
  induction bytes with
  | nil => rfl
  | cons x rest ih =>
    have joined : x / 16 * 16 + x % 16 = x := by
      have lt := x.toNat_lt
      exact UInt8.toNat_inj.mp (by simp; omega)
    simp only [List.flatMap_cons, List.cons_append, List.nil_append, hexBytes, hexValue_div,
      hexValue_mod, ih, Option.bind_some, Option.map_some, joined]

/-- What stands before and after the first separator, if there is one. -/
def splitOnce {α : Type*} [DecidableEq α] (sep : α) : List α → Option (List α × List α)
  | [] => none
  | a :: rest =>
    if a = sep then some ([], rest)
    else (splitOnce sep rest).map fun parts => (a :: parts.1, parts.2)

theorem splitOnce_eq_some {α : Type*} [DecidableEq α] {sep : α} {items front back : List α}
    (split : splitOnce sep items = some (front, back)) : items = front ++ sep :: back := by
  induction items generalizing front with
  | nil => cases split
  | cons a rest ih =>
    rw [splitOnce] at split
    split_ifs at split with here
    · cases split
      rw [here, List.nil_append]
    · obtain ⟨parts, found, same⟩ := Option.map_eq_some_iff.mp split
      cases same
      rw [List.cons_append, ← ih found]

theorem splitOnce_append {α : Type*} [DecidableEq α] {sep : α} {front : List α} (back : List α)
    (plain : sep ∉ front) : splitOnce sep (front ++ sep :: back) = some (front, back) := by
  induction front with
  | nil => simp [splitOnce]
  | cons a rest ih =>
    obtain ⟨here, later⟩ := List.ne_and_not_mem_of_not_mem_cons plain
    simp [splitOnce, Ne.symm here, ih later]

theorem flatten_toChunks {α : Type*} (n : Nat) (items : List α) :
    (items.toChunks n).flatten = items := by
  have collects : ∀ (items : List α) (acc₁ : Array α) (acc₂ : Array (List α)),
      (List.toChunks.go n items acc₁ acc₂).flatten =
        acc₂.toList.flatten ++ acc₁.toList ++ items := by
    intro items
    induction items with
    | nil => intro acc₁ acc₂; simp [List.toChunks.go]
    | cons a rest ih =>
      intro acc₁ acc₂
      rw [List.toChunks.go]
      split <;> simp [ih]
  cases items with
  | nil => cases n <;> rfl
  | cons a rest =>
    cases n with
    | zero => simp [List.toChunks]
    | succ n => simp [List.toChunks, collects]

theorem length_flatten_le_intercalate {α : Type*} (sep : List α) (parts : List (List α)) :
    parts.flatten.length ≤ (List.intercalate sep parts).length := by
  induction parts with
  | nil => exact Nat.zero_le _
  | cons first rest ih =>
    cases rest with
    | nil => simp
    | cons second more =>
      simp [List.intercalate_cons_cons] at ih ⊢
      omega

/-- The low 16 bits of a length. -/
def toBeBytes16 (n : Nat) : Bytes := [UInt8.ofNat (n / 256), UInt8.ofNat n]

def fromBeBytes16 (hi lo : UInt8) : Nat := hi.toNat * 256 + lo.toNat

/-- The low `width` bytes of a number, the highest first. -/
def toBeBytes : (width : Nat) → Nat → Bytes
  | 0, _ => []
  | width + 1, n => toBeBytes width (n / 256) ++ [UInt8.ofNat n]

def fromBeBytes (bytes : Bytes) : Nat := bytes.foldl (fun n x => n * 256 + x.toNat) 0

@[simp] theorem length_toBeBytes (width n : Nat) : (toBeBytes width n).length = width := by
  induction width generalizing n with
  | zero => rfl
  | succ width ih => rw [toBeBytes, List.length_append, ih, List.length_singleton]

theorem fromBeBytes_toBeBytes (width n : Nat) :
    fromBeBytes (toBeBytes width n) = n % 256 ^ width := by
  induction width generalizing n with
  | zero => rw [pow_zero, Nat.mod_one]; rfl
  | succ width ih =>
    have low : (UInt8.ofNat n).toNat = n % 256 := by simp
    simp only [fromBeBytes] at ih ⊢
    rw [toBeBytes, List.foldl_append, ih, List.foldl_cons, List.foldl_nil, low, pow_succ,
      Nat.mul_comm, Nat.mul_comm (256 ^ width), Nat.mod_mul]
    omega

theorem fromBeBytes_concat (front : Bytes) (x : UInt8) :
    fromBeBytes (front ++ [x]) = fromBeBytes front * 256 + x.toNat := by
  rw [fromBeBytes, List.foldl_append]
  rfl

theorem fromBeBytes_lt (bytes : Bytes) : fromBeBytes bytes < 256 ^ bytes.length := by
  induction bytes using List.reverseRecOn with
  | nil => exact Nat.one_pos
  | append_singleton front x ih =>
    have last := x.toNat_lt
    rw [fromBeBytes_concat, List.length_append, List.length_singleton, pow_succ]
    omega

theorem fromBeBytes_injective {a b : Bytes} (sized : a.length = b.length)
    (same : fromBeBytes a = fromBeBytes b) : a = b := by
  induction a using List.reverseRecOn generalizing b with
  | nil => exact (List.length_eq_zero_iff.mp sized.symm).symm
  | append_singleton front x ih =>
    cases b using List.reverseRecOn with
    | nil => simp at sized
    | append_singleton front' y =>
      have lastX := x.toNat_lt
      have lastY := y.toNat_lt
      rw [fromBeBytes_concat, fromBeBytes_concat] at same
      rw [List.length_append, List.length_append, List.length_singleton, List.length_singleton]
        at sized
      have fronts := ih (Nat.add_right_cancel sized) (by omega)
      have lasts : x = y := UInt8.toNat_inj.mp (by omega)
      rw [fronts, lasts]

theorem toBeBytes_fromBeBytes {bytes : Bytes} {width : Nat} (sized : bytes.length = width) :
    toBeBytes width (fromBeBytes bytes) = bytes := by
  subst sized
  apply fromBeBytes_injective (length_toBeBytes _ _)
  rw [fromBeBytes_toBeBytes, Nat.mod_eq_of_lt (fromBeBytes_lt bytes)]

/-- How many bytes follow a leading byte, and the range of the first of them. -/
def utf8Lead (b : UInt8) : Option (Nat × UInt8 × UInt8) :=
  if 0xC2 ≤ b ∧ b ≤ 0xDF then some (1, 0x80, 0xBF)
  else if b = 0xE0 then some (2, 0xA0, 0xBF)
  else if b = 0xED then some (2, 0x80, 0x9F)
  else if 0xE1 ≤ b ∧ b ≤ 0xEF then some (2, 0x80, 0xBF)
  else if b = 0xF0 then some (3, 0x90, 0xBF)
  else if 0xF1 ≤ b ∧ b ≤ 0xF3 then some (3, 0x80, 0xBF)
  else if b = 0xF4 then some (3, 0x80, 0x8F)
  else none

/-- The code point that the following bytes complete, up to the first byte that does not fit. -/
def utf8Following : Nat → UInt8 → UInt8 → Nat → Bytes → Option Nat × Bytes
  | 0, _, _, code, rest => (some code, rest)
  | _ + 1, _, _, _, [] => (none, [])
  | more + 1, low, high, code, b :: rest =>
    if low ≤ b ∧ b ≤ high then
      utf8Following more 0x80 0xBF (code * 64 + (b &&& 0x3F).toNat) rest
    else (none, b :: rest)

def utf8LossyChars : Nat → Bytes → List Char
  | 0, _ => []
  | _ + 1, [] => []
  | fuel + 1, b :: rest =>
    if b < 0x80 then Char.ofNat b.toNat :: utf8LossyChars fuel rest
    else match utf8Lead b with
      | none => Char.ofNat 0xFFFD :: utf8LossyChars fuel rest
      | some (more, low, high) =>
        let (code, rest) := utf8Following more low high (b.toNat % 2 ^ (6 - more)) rest
        Char.ofNat (code.getD 0xFFFD) :: utf8LossyChars fuel rest

/-- `from_utf8_lossy`: each part that begins no character becomes U+FFFD. -/
def fromUtf8Lossy (bytes : Bytes) : String := String.ofList (utf8LossyChars bytes.length bytes)

theorem fromUtf8Lossy_ascii {bytes : Bytes} (ascii : ∀ b ∈ bytes, b < 0x80) :
    fromUtf8Lossy bytes = String.ofList (bytes.map fun b => Char.ofNat b.toNat) := by
  rw [fromUtf8Lossy]
  congr 1
  induction bytes with
  | nil => rfl
  | cons b rest ih =>
    obtain ⟨here, later⟩ := List.forall_mem_cons.mp ascii
    rw [List.length_cons, utf8LossyChars, if_pos here, ih later, List.map_cons]

/-- `trim_end_matches` -/
def trimEndMatches (c : Char) (text : String) : String :=
  String.ofList (text.toList.rdropWhile (· = c))

/-- The 16-bit number in the last two bytes. -/
def trailingLength (body : Bytes) : Nat :=
  fromBeBytes16 (body.getD (body.length - 2) 0) (body.getD (body.length - 1) 0)

theorem trailingLength_append (front : Bytes) (n : Nat) (small : n < 2 ^ 16) :
    trailingLength (front ++ toBeBytes16 n) = n := by
  have hi : (front ++ toBeBytes16 n).getD ((front ++ toBeBytes16 n).length - 2) 0 =
      UInt8.ofNat (n / 256) := by
    simp [toBeBytes16]
  have lo : (front ++ toBeBytes16 n).getD ((front ++ toBeBytes16 n).length - 1) 0 =
      UInt8.ofNat n := by
    simp [toBeBytes16]
  rw [trailingLength, hi, lo, fromBeBytes16]
  simp only [UInt8.toNat_ofNat']
  omega

theorem toString_injective {a b : UInt64} (same : toString a = toString b) : a = b :=
  UInt64.toNat_inj.mp (Nat.repr_injective same)

/-- What stands after the last separator is determined. -/
theorem append_separator_inj {α : Type*} {sep : α} {front front' last last' : List α}
    (plain : sep ∉ last) (plain' : sep ∉ last')
    (same : front ++ sep :: last = front' ++ sep :: last') : front = front' ∧ last = last' := by
  have after : ∀ {more l l' : List α}, sep ∉ l → sep :: l = more ++ sep :: l' → more = [] := by
    intro more l l' free split
    cases more with
    | nil => rfl
    | cons a rest =>
      have rest_eq : l = rest ++ sep :: l' := (List.cons.inj split).2
      exact absurd (by simp [rest_eq]) free
  rcases List.append_eq_append_iff.mp same with ⟨more, isFront, split⟩ | ⟨more, isFront, split⟩
  · obtain rfl := after plain split
    simp_all
  · obtain rfl := after plain' split
    simp_all

/-- What stands before the first separator is determined. -/
theorem separator_append_inj {α : Type*} {sep : α} {first first' back back' : List α}
    (plain : sep ∉ first) (plain' : sep ∉ first')
    (same : first ++ sep :: back = first' ++ sep :: back') : first = first' ∧ back = back' := by
  have reversed :
      back.reverse ++ sep :: first.reverse = back'.reverse ++ sep :: first'.reverse := by
    simpa using congrArg List.reverse same
  obtain ⟨backs, firsts⟩ := append_separator_inj (by simpa using plain) (by simpa using plain')
    reversed
  exact ⟨List.reverse_injective firsts, List.reverse_injective backs⟩

theorem toList_toString (n : Nat) : (toString n).toList = Nat.toDigits 10 n := Nat.toList_repr

theorem toList_toString_ne_nil (n : Nat) : (toString n).toList ≠ [] := by
  rw [toList_toString]
  exact Nat.toDigits_ne_nil

theorem isDigit_of_mem_toString {n : Nat} {c : Char} (member : c ∈ (toString n).toList) :
    c.isDigit = true := by
  rw [toList_toString] at member
  exact Nat.isDigit_of_mem_toDigits (by decide) (by decide) member

theorem max_eq_left_iff_le (a b : UInt64) : max a b = a ↔ b ≤ a := by
  change (if a ≤ b then b else a) = a ↔ b ≤ a
  split
  · rename_i le
    exact ⟨fun same => same ▸ UInt64.le_refl b, fun ge => UInt64.le_antisymm ge le⟩
  · rename_i gt
    exact ⟨fun _ => (UInt64.le_total a b).resolve_left gt, fun _ => rfl⟩

end ByteStrings
