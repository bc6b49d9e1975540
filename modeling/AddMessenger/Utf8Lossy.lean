import AddMessenger.ByteStrings

/-!
# Reading bytes that may be no text

What `from_utf8_lossy` makes of the bytes of a text is the text, whatever stands behind them,
and no byte vanishes.
-/

namespace ByteStrings

theorem length_utf8Following (more : Nat) (low high : UInt8) (code : Nat) (bytes : Bytes) :
    (utf8Following more low high code bytes).2.length ≤ bytes.length := by
  induction more generalizing low high code bytes with
  | zero => rfl
  | succ more ih =>
    cases bytes with
    | nil => rfl
    | cons b rest =>
      rw [utf8Following]
      split
      · exact (ih _ _ _ rest).trans (Nat.le_succ _)
      · rfl

/-- Every round takes a byte, so more rounds than bytes change nothing. -/
theorem utf8LossyChars_rounds {fuel fuel' : Nat} {bytes : Bytes} (enough : bytes.length ≤ fuel)
    (enough' : bytes.length ≤ fuel') : utf8LossyChars fuel bytes = utf8LossyChars fuel' bytes := by
  induction fuel generalizing fuel' bytes with
  | zero =>
    rw [List.length_eq_zero_iff.mp (Nat.le_zero.mp enough)]
    cases fuel' <;> rfl
  | succ fuel ih =>
    cases bytes with
    | nil => cases fuel' <;> rfl
    | cons b rest =>
      cases fuel' with
      | zero => cases enough'
      | succ fuel' =>
        have tail : rest.length ≤ fuel := Nat.le_of_succ_le_succ enough
        have tail' : rest.length ≤ fuel' := Nat.le_of_succ_le_succ enough'
        rw [utf8LossyChars, utf8LossyChars, ih tail tail']
        split
        · rfl
        · split
          · rfl
          · next more low high _ =>
            have shorter := length_utf8Following more low high (b.toNat % 2 ^ (6 - more)) rest
            simp only
            rw [ih (shorter.trans tail) (shorter.trans tail')]

theorem toNat_continuation (n : Nat) : (UInt8.ofNat (n % 64 + 128)).toNat = n % 64 + 128 := by
  rw [UInt8.toNat_ofNat']
  omega

theorem and_continuation (n : Nat) : (UInt8.ofNat (n % 64 + 128) &&& 0x3F).toNat = n % 64 := by
  have all : ∀ m < 64, (UInt8.ofNat (m + 128) &&& 0x3F).toNat = m := by decide
  exact all _ (Nat.mod_lt n (by decide))

/-- A continuation byte that is in the range adds its six bits. -/
theorem utf8Following_continuation {low high : UInt8} {n : Nat} (more code : Nat) (rest : Bytes)
    (above : low.toNat ≤ n % 64 + 128) (below : n % 64 + 128 ≤ high.toNat) :
    utf8Following (more + 1) low high code (UInt8.ofNat (n % 64 + 128) :: rest) =
      utf8Following more 0x80 0xBF (code * 64 + n % 64) rest := by
  have inside : low ≤ UInt8.ofNat (n % 64 + 128) ∧ UInt8.ofNat (n % 64 + 128) ≤ high := by
    rw [UInt8.le_iff_toNat_le, UInt8.le_iff_toNat_le, toNat_continuation]
    exact ⟨above, below⟩
  rw [utf8Following, if_pos inside, and_continuation]

/-- The leading bytes of two, three and four bytes. -/
theorem utf8Lead_two : ∀ n < 32, 2 ≤ n → ¬ UInt8.ofNat (n + 192) < 0x80 ∧
    (UInt8.ofNat (n + 192)).toNat % 32 = n ∧
      utf8Lead (UInt8.ofNat (n + 192)) = some (1, 0x80, 0xBF) := by
  decide

theorem utf8Lead_three : ∀ n < 16, ¬ UInt8.ofNat (n + 224) < 0x80 ∧
    (UInt8.ofNat (n + 224)).toNat % 16 = n ∧
      utf8Lead (UInt8.ofNat (n + 224)) =
        some (2, if n = 0 then 0xA0 else 0x80, if n = 13 then 0x9F else 0xBF) := by
  decide

theorem utf8Lead_four : ∀ n < 5, ¬ UInt8.ofNat (n + 240) < 0x80 ∧
    (UInt8.ofNat (n + 240)).toNat % 8 = n ∧
      utf8Lead (UInt8.ofNat (n + 240)) =
        some (3, if n = 0 then 0x90 else 0x80, if n = 4 then 0x8F else 0xBF) := by
  decide

/-- One round reads one character of a text. -/
theorem utf8LossyChars_char (c : Char) (fuel : Nat) (rest : Bytes) :
    utf8LossyChars (fuel + 1) (String.utf8EncodeChar c ++ rest) =
      c :: utf8LossyChars fuel rest := by
  have back : Char.ofNat c.val.toNat = c := Char.ofNat_toNat c
  have valid : c.val.toNat < 0xD800 ∨ 0xDFFF < c.val.toNat ∧ c.val.toNat < 0x110000 := c.valid
  rw [String.utf8EncodeChar]
  generalize c.val.toNat = v at back valid
  split
  · next one =>
    have low : UInt8.ofNat v < 0x80 := by
      rw [UInt8.lt_iff_toNat_lt, UInt8.toNat_ofNat']
      show v % 256 < 128
      omega
    have value : (UInt8.ofNat v).toNat = v := by
      rw [UInt8.toNat_ofNat']
      omega
    rw [List.singleton_append, utf8LossyChars, if_pos low, value, back]
  · split
    · next two =>
      obtain ⟨high, six, lead⟩ := utf8Lead_two (v / 64 % 32) (by omega) (by omega)
      have code : v / 64 % 32 * 64 + v % 64 = v := by omega
      rw [List.cons_append, utf8LossyChars, if_neg high, lead]
      simp only
      rw [List.singleton_append, show 2 ^ (6 - 1) = 32 from rfl, six,
        utf8Following_continuation 0 _ _ (by simp) (by simp; omega), utf8Following, code,
        Option.getD_some, back]
    · split
      · next three =>
        obtain ⟨high, twelve, lead⟩ := utf8Lead_three (v / 4096 % 16) (by omega)
        have code : (v / 4096 % 16 * 64 + v / 64 % 64) * 64 + v % 64 = v := by omega
        -- no overlong form and no surrogate
        have above : (if v / 4096 % 16 = 0 then (0xA0 : UInt8) else 0x80).toNat ≤
            v / 64 % 64 + 128 := by
          split
          · simp
            omega
          · simp
        have below : v / 64 % 64 + 128 ≤
            (if v / 4096 % 16 = 13 then (0x9F : UInt8) else 0xBF).toNat := by
          split <;> simp <;> omega
        rw [List.cons_append, utf8LossyChars, if_neg high, lead]
        simp only
        rw [List.cons_append, List.singleton_append, show 2 ^ (6 - 2) = 16 from rfl, twelve,
          utf8Following_continuation 1 _ _ above below,
          utf8Following_continuation 0 _ _ (by simp) (by simp; omega), utf8Following, code,
          Option.getD_some, back]
      · next four =>
        have five : v / 262144 % 8 < 5 := by omega
        obtain ⟨high, eighteen, lead⟩ := utf8Lead_four (v / 262144 % 8) five
        have code : ((v / 262144 % 8 * 64 + v / 4096 % 64) * 64 + v / 64 % 64) * 64 + v % 64 =
            v := by omega
        -- no overlong form and nothing past the last code point
        have above : (if v / 262144 % 8 = 0 then (0x90 : UInt8) else 0x80).toNat ≤
            v / 4096 % 64 + 128 := by
          split
          · simp
            omega
          · simp
        have below : v / 4096 % 64 + 128 ≤
            (if v / 262144 % 8 = 4 then (0x8F : UInt8) else 0xBF).toNat := by
          split <;> simp <;> omega
        rw [List.cons_append, utf8LossyChars, if_neg high, lead]
        simp only
        rw [List.cons_append, List.cons_append, List.singleton_append,
          show 2 ^ (6 - 3) = 8 from rfl, eighteen,
          utf8Following_continuation 2 _ _ above below,
          utf8Following_continuation 1 _ _ (by simp) (by simp; omega),
          utf8Following_continuation 0 _ _ (by simp) (by simp; omega), utf8Following, code,
          Option.getD_some, back]

theorem asBytes_cons (c : Char) (rest : List Char) :
    asBytes (String.ofList (c :: rest)) =
      String.utf8EncodeChar c ++ asBytes (String.ofList rest) := by
  show (c :: rest).utf8Encode.data.toList = _ ++ rest.utf8Encode.data.toList
  rw [List.utf8Encode_cons, List.utf8Encode_singleton]
  simp

/-- A text is read as it is, and then what stands behind it. -/
theorem fromUtf8Lossy_append (text : String) (bytes : Bytes) :
    fromUtf8Lossy (asBytes text ++ bytes) = text ++ fromUtf8Lossy bytes := by
  have chars : ∀ l : List Char, ∀ fuel, (asBytes (String.ofList l) ++ bytes).length ≤ fuel →
      utf8LossyChars fuel (asBytes (String.ofList l) ++ bytes) =
        l ++ utf8LossyChars bytes.length bytes := by
    intro l
    induction l with
    | nil => exact fun fuel enough => utf8LossyChars_rounds enough (Nat.le_refl _)
    | cons c rest ih =>
      intro fuel enough
      have some_ := String.length_utf8EncodeChar c
      have positive := c.utf8Size_pos
      rw [asBytes_cons, List.append_assoc, List.length_append] at enough
      cases fuel with
      | zero => omega
      | succ fuel =>
        rw [asBytes_cons, List.append_assoc, utf8LossyChars_char, ih fuel (by omega),
          List.cons_append]
  have whole := chars text.toList _ (Nat.le_refl _)
  rw [String.ofList_toList] at whole
  rw [fromUtf8Lossy, whole, fromUtf8Lossy, String.ofList_append, String.ofList_toList]

/-- Bytes leave at least one character. -/
theorem fromUtf8Lossy_eq_empty {bytes : Bytes} : fromUtf8Lossy bytes = "" ↔ bytes = [] := by
  constructor
  · intro empty
    cases bytes with
    | nil => rfl
    | cons b rest =>
      have none_ : utf8LossyChars (b :: rest).length (b :: rest) = [] := by
        have chars := congrArg String.toList empty
        rwa [fromUtf8Lossy, String.toList_ofList] at chars
      rw [List.length_cons, utf8LossyChars] at none_
      split at none_
      · cases none_
      · split at none_ <;> cases none_
  · rintro rfl
    rfl

end ByteStrings
