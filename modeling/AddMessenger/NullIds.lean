import AddMessenger.ClientSessions
import AddMessenger.Contacts

/-!
# Three derivations of a null id

`null_id` and its validators in `crypto/src/lib.rs`, `null_id_from_fingerprint` of
`crypto-utils/src/lib.rs` and `compute_null_id` with its validators in
`dht-core/src/crypto_helpers.rs`. All three print the 16-byte Blake2b digest of a
fingerprint; they differ in how much of it, in what groups and case, and in what they
make of the spaces and the case of the fingerprint.

Unicode case mapping is a parameter where it meets arbitrary text.
-/

namespace NullIds

open ByteStrings ClientSessions Ratchet Contacts

variable (S : Signatures.Primitives) (toLowercase : String → String)

/-- `text.replace(' ', "")`. -/
def withoutSpaces (text : String) : String := String.ofList (text.toList.filter (· ≠ ' '))

def validateFingerprint (fp : String) : Except CryptoError Unit :=
  let cleaned := S.toUppercase (withoutSpaces fp)
  if ¬ (32 ≤ cleaned.utf8ByteSize ∧ cleaned.utf8ByteSize ≤ 40) then
    .error (.invalidFingerprint "fingerprint must be 32-40 hex chars")
  else if !cleaned.toList.all Signatures.isAsciiHexdigit then
    .error (.invalidFingerprint "fingerprint contains non-hex characters")
  else .ok ()

def nullIdFormat : CryptoError :=
  .invalidFingerprint "null ID must be NN-\x7b8hex\x7d-\x7b8hex\x7d format"

def validateNullId (nid : String) : Except CryptoError Unit :=
  match nid.toList.splitOn '-' with
  | [mark, first, second] =>
    if mark = "NN".toList ∧ (String.ofList first).utf8ByteSize = 8 ∧
      (String.ofList second).utf8ByteSize = 8 then .ok ()
    else .error nullIdFormat
  | _ => .error nullIdFormat

def validateNullIdStrict (nid fingerprint : String) : Except CryptoError Unit := do
  validateNullId nid
  validateFingerprint S fingerprint
  let expected := nullId S fingerprint
  if nid ≠ expected then
    .error (.invalidFingerprint ("null ID " ++ nid ++
      " does not match fingerprint-derived ID " ++ expected))
  else .ok ()

/-- `text.replace("0x", "")`. -/
def withoutMarks : List Char → List Char
  | '0' :: 'x' :: rest => withoutMarks rest
  | c :: rest => c :: withoutMarks rest
  | [] => []

def utilsValidateFingerprint (fp : String) : Bool :=
  let cleaned := String.ofList (withoutMarks (withoutSpaces fp).toList)
  32 ≤ cleaned.utf8ByteSize && cleaned.utf8ByteSize ≤ 40 &&
    cleaned.toList.all Signatures.isAsciiHexdigit

def blake2b16Hex (data : String) : String := hexEncode (S.blake2b16 (asBytes data)).val

/-- The groups are hex digits, for which `to_uppercase` is the one of ASCII. -/
def nullIdFromFingerprint (fp : String) : String :=
  let cleaned := toLowercase (withoutSpaces fp)
  let hex := (blake2b16Hex S cleaned).toList
  "NN-" ++ String.ofList ((hex.take 8).map Char.toUpper) ++ "-" ++
    String.ofList (((hex.drop 8).take 8).map Char.toUpper)

/-- One null id for a fingerprint: the derivations agree, both validators take it, and
the strict ones take nothing else. -/
structure OneNullId (fp : String) : Prop where
  crypto_utils : nullId S fp = nullIdFromFingerprint S toLowercase fp
  crypto_dht : nullId S fp = Signatures.computeNullId S fp
  accepted : validateNullId (nullId S fp) = .ok () ∧
    Signatures.validateNullId (nullId S fp) = true
  strict : ∀ nid, (validateNullIdStrict S nid fp = .ok () ↔ nid = nullId S fp) ∧
    (Signatures.validateNullIdStrict S nid fp = true ↔ nid = nullId S fp)

section

variable {S toLowercase} {fp nid : String}

/-- The parts of a null id in two groups. -/
theorem splitOn_groups {first second : List Char} (dashless : '-' ∉ first ∧ '-' ∉ second) :
    ("NN-" ++ String.ofList first ++ "-" ++ String.ofList second).toList.splitOn '-' =
      ["NN".toList, first, second] := by
  have joined : ("NN-" ++ String.ofList first ++ "-" ++ String.ofList second).toList =
      List.intercalate ['-'] ["NN".toList, first, second] := by
    simp [List.intercalate]
  rw [joined]
  refine List.splitOn_intercalate '-' ?_ (by simp)
  intro part member
  simp only [List.mem_cons, List.not_mem_nil, or_false] at member
  rcases member with rfl | rfl | rfl
  · decide
  · exact dashless.1
  · exact dashless.2

theorem exists_digit_of_mem {b : Bytes} {c : Char} (member : c ∈ (hexEncode b).toList) :
    ∃ n < 16, c = hexDigit (UInt8.ofNat n) := by
  rw [hexEncode, String.toList_ofList] at member
  obtain ⟨x, -, digit⟩ := List.mem_flatMap.mp member
  have bound := x.toNat_lt
  rcases List.mem_cons.mp digit with rfl | digit
  · refine ⟨x.toNat / 16, by omega, congrArg hexDigit (UInt8.toNat_inj.mp ?_)⟩
    simp
    omega
  · refine ⟨x.toNat % 16, by omega, ?_⟩
    rw [List.mem_singleton.mp digit]
    refine congrArg hexDigit (UInt8.toNat_inj.mp ?_)
    simp
    omega

/-- What a test says of the sixteen digits it says of all digits of a digest. -/
theorem digit_of_mem {test : Char → Prop} (all : ∀ n < 16, test (hexDigit (UInt8.ofNat n)))
    {b : Bytes} : ∀ c ∈ (hexEncode b).toList, test c := by
  intro c member
  obtain ⟨n, small, rfl⟩ := exists_digit_of_mem member
  exact all n small

theorem dashless_digit : ∀ n < 16, hexDigit (UInt8.ofNat n) ≠ '-' ∧
    (hexDigit (UInt8.ofNat n)).toUpper ≠ '-' := by
  decide

theorem narrow_digit : ∀ n < 16, (hexDigit (UInt8.ofNat n)).utf8Size = 1 ∧
    (hexDigit (UInt8.ofNat n)).toUpper.utf8Size = 1 := by
  decide

/-- An upper-case digit is a lower-case one only where there is no case. -/
theorem upper_digit : ∀ n < 16, ∀ m < 16,
    (hexDigit (UInt8.ofNat n) = (hexDigit (UInt8.ofNat m)).toUpper ↔
      hexDigit (UInt8.ofNat n) = hexDigit (UInt8.ofNat m) ∧
        (hexDigit (UInt8.ofNat n)).isDigit = true) := by
  decide

theorem utf8ByteSize_narrow {chars : List Char} (narrow : ∀ c ∈ chars, c.utf8Size = 1) :
    (String.ofList chars).utf8ByteSize = chars.length := by
  rw [String.utf8ByteSize_ofList]
  induction chars with
  | nil => rfl
  | cons c rest ih =>
    obtain ⟨here, later⟩ := List.forall_mem_cons.mp narrow
    rw [String.utf8Len_cons, ih later, here, List.length_cons]

/-- Two groups of eight narrow characters pass the check of the `crypto` crate. -/
theorem validateNullId_groups {first second : List Char} (dashless : '-' ∉ first ∧ '-' ∉ second)
    (narrow : ∀ c ∈ first ++ second, c.utf8Size = 1) (eight : first.length = 8)
    (also : second.length = 8) :
    validateNullId ("NN-" ++ String.ofList first ++ "-" ++ String.ofList second) = .ok () := by
  have size := utf8ByteSize_narrow fun c member => narrow c (List.mem_append_left second member)
  have size' := utf8ByteSize_narrow fun c member => narrow c (List.mem_append_right first member)
  have parts := splitOn_groups dashless
  rw [validateNullId, parts]
  exact if_pos ⟨rfl, size.trans eight, size'.trans also⟩

/-- The two groups of digits of a digest, printed through `view`. -/
theorem validateNullId_digits (view : Char → Char)
    (plain : ∀ n < 16, view (hexDigit (UInt8.ofNat n)) ≠ '-')
    (narrow : ∀ n < 16, (view (hexDigit (UInt8.ofNat n))).utf8Size = 1) (data : String) :
    validateNullId ("NN-" ++ String.ofList (((blake2b16Hex S data).toList.take 8).map view) ++
      "-" ++ String.ofList ((((blake2b16Hex S data).toList.drop 8).take 8).map view)) = .ok () := by
  have size : (blake2b16Hex S data).toList.length = 32 := by
    rw [blake2b16Hex, hexEncode_toList_length, (S.blake2b16 (asBytes data)).property]
  have front : ∀ c ∈ (blake2b16Hex S data).toList.take 8, c ∈ (blake2b16Hex S data).toList :=
    fun c => List.mem_of_mem_take
  have back : ∀ c ∈ ((blake2b16Hex S data).toList.drop 8).take 8,
      c ∈ (blake2b16Hex S data).toList := fun c member =>
    List.mem_of_mem_drop (List.mem_of_mem_take member)
  have dashless : ∀ chars : List Char, (∀ c ∈ chars, c ∈ (blake2b16Hex S data).toList) →
      '-' ∉ chars.map view := by
    intro chars digits member
    obtain ⟨c, there, dash⟩ := List.mem_map.mp member
    exact @digit_of_mem (fun c => view c ≠ '-') plain _ c (digits c there) dash
  refine validateNullId_groups ⟨dashless _ front, dashless _ back⟩ ?_ ?_ ?_
  · intro c member
    rw [← List.map_append] at member
    obtain ⟨d, there, rfl⟩ := List.mem_map.mp member
    have digit := (List.mem_append.mp there).elim (front d) (back d)
    exact @digit_of_mem (fun c => (view c).utf8Size = 1) narrow _ d digit
  · rw [List.length_map, List.length_take, size]
    rfl
  · rw [List.length_map, List.length_take, List.length_drop, size]
    rfl

theorem validateNullId_nullId : validateNullId (nullId S fp) = .ok () := by
  have valid := validateNullId_digits (S := S) id (fun n small => (dashless_digit n small).1)
    (fun n small => (narrow_digit n small).1) fp
  rwa [List.map_id, List.map_id] at valid

theorem validateNullId_fromFingerprint :
    validateNullId (nullIdFromFingerprint S toLowercase fp) = .ok () :=
  validateNullId_digits Char.toUpper (fun n small => (dashless_digit n small).2)
    (fun n small => (narrow_digit n small).2) (toLowercase (withoutSpaces fp))

/-- What the check of the `crypto` crate lets through. -/
theorem parts_of_valid (valid : validateNullId nid = .ok ()) :
    ∃ first second, nid.toList.splitOn '-' = ["NN".toList, first, second] ∧
      (String.ofList first).utf8ByteSize = 8 ∧ (String.ofList second).utf8ByteSize = 8 := by
  simp only [validateNullId] at valid
  split at valid
  · rename_i mark first second parts
    split at valid
    · rename_i sizes
      exact ⟨first, second, sizes.1 ▸ parts, sizes.2⟩
    · cases valid
  · cases valid

theorem text_of_valid (valid : validateNullId nid = .ok ()) :
    ∃ first second, nid = "NN-" ++ String.ofList first ++ "-" ++ String.ofList second ∧
      (String.ofList first).utf8ByteSize = 8 ∧ (String.ofList second).utf8ByteSize = 8 := by
  obtain ⟨first, second, parts, sizes⟩ := parts_of_valid valid
  refine ⟨first, second, String.toList_inj.mp ?_, sizes⟩
  have joined : List.intercalate ['-'] (nid.toList.splitOn '-') = nid.toList :=
    List.intercalate_splitOn '-'
  rw [← joined, parts]
  simp [List.intercalate]

/-- No text passes the checks of both crates: three parts against nine. -/
theorem not_valid_of_valid (valid : validateNullId nid = .ok ()) :
    Signatures.validateNullId nid = false := by
  obtain ⟨first, second, parts, -⟩ := parts_of_valid valid
  obtain ⟨front, back, text, -⟩ := text_of_valid valid
  have bare : Signatures.startsWith nid "addr:" = false := by
    rw [text]
    simp [Signatures.startsWith, List.isPrefixOf]
  have whole : Signatures.stripped nid "addr:" = nid := by
    simp only [Signatures.stripped, bare, Bool.false_eq_true, if_false]
  simp [Signatures.validateNullId, whole, parts]

/-- The null id of the DHT is too long for the check of the `crypto` crate. -/
theorem validateNullId_computeNullId :
    validateNullId (Signatures.computeNullId S fp) ≠ .ok () := by
  intro valid
  obtain ⟨first, second, text, size, size'⟩ := text_of_valid valid
  have long := Signatures.length_computeNullId (P := S) fp
  have bytes : (asBytes (Signatures.computeNullId S fp)).length = 20 := by
    change (Signatures.computeNullId S fp).utf8ByteSize = 20
    rw [text, String.utf8ByteSize_append, String.utf8ByteSize_append, String.utf8ByteSize_append,
      size, size']
    rfl
  omega

/-- Digits in lower case are those of a text in upper case only where they are decimal. -/
theorem eq_map_toUpper_iff {digits others : List Char}
    (hex : ∀ c ∈ digits, ∃ n < 16, c = hexDigit (UInt8.ofNat n))
    (hex' : ∀ c ∈ others, ∃ n < 16, c = hexDigit (UInt8.ofNat n)) :
    digits = others.map Char.toUpper ↔ digits = others ∧ ∀ c ∈ digits, c.isDigit = true := by
  induction digits generalizing others with
  | nil => cases others with
    | nil => simp
    | cons c rest => simp
  | cons c rest ih =>
    cases others with
    | nil => simp
    | cons d others =>
      obtain ⟨⟨n, small, rfl⟩, later⟩ := List.forall_mem_cons.mp hex
      obtain ⟨⟨m, small', rfl⟩, later'⟩ := List.forall_mem_cons.mp hex'
      rw [List.map_cons, List.cons.injEq, List.cons.injEq, List.forall_mem_cons,
        upper_digit n small m small', ih later later']
      tauto

theorem groups_inj {a b a' b' : List Char} (size : a.length = a'.length) :
    "NN-" ++ String.ofList a ++ "-" ++ String.ofList b =
        "NN-" ++ String.ofList a' ++ "-" ++ String.ofList b' ↔ a ++ b = a' ++ b' := by
  rw [← String.toList_inj]
  simp only [String.toList_append, String.toList_ofList, List.append_assoc,
    List.append_cancel_left_eq]
  constructor
  · intro same
    obtain ⟨rfl, rest⟩ := List.append_inj same size
    rw [List.append_cancel_left rest]
  · intro same
    obtain ⟨rfl, rfl⟩ := List.append_inj same size
    rfl

/-- The `crypto` and `crypto-utils` crates agree on a fingerprint exactly if the digests of
what they hash start with the same sixteen digits and none of them is a letter. -/
theorem nullId_eq_fromFingerprint_iff :
    nullId S fp = nullIdFromFingerprint S toLowercase fp ↔
      (blake2b16Hex S fp).toList.take 16 =
        (blake2b16Hex S (toLowercase (withoutSpaces fp))).toList.take 16 ∧
      ∀ c ∈ (blake2b16Hex S fp).toList.take 16, c.isDigit = true := by
  have size : ∀ data, (blake2b16Hex S data).toList.length = 32 := by
    intro data
    rw [blake2b16Hex, hexEncode_toList_length, (S.blake2b16 (asBytes data)).property]
  have digits : ∀ data, ∀ c ∈ (blake2b16Hex S data).toList.take 16,
      ∃ n < 16, c = hexDigit (UInt8.ofNat n) := fun data c member =>
    exists_digit_of_mem (List.mem_of_mem_take member)
  have halves : ∀ chars : List Char, chars.take (8 + 8) = chars.take 8 ++ (chars.drop 8).take 8 :=
    fun chars => List.take_add
  have eight : ((blake2b16Hex S fp).toList.take 8).length = (((blake2b16Hex S
      (toLowercase (withoutSpaces fp))).toList.take 8).map Char.toUpper).length := by
    rw [List.length_map, List.length_take, List.length_take, size, size]
  rw [← eq_map_toUpper_iff (digits fp) (digits _)]
  change _ ↔ List.take (8 + 8) _ = (List.take (8 + 8) _).map _
  rw [halves, halves, List.map_append]
  exact groups_inj eight

end

/-- The derivations never agree: the null id of the DHT is neither of the other two, each
crate refuses the other's, and so no fingerprint has one null id. -/
theorem no_common_null_id (fp : String) :
    ¬ OneNullId S toLowercase fp ∧
      nullId S fp ≠ Signatures.computeNullId S fp ∧
      nullIdFromFingerprint S toLowercase fp ≠ Signatures.computeNullId S fp ∧
      Signatures.validateNullIdStrict S (nullId S fp) fp = false ∧
      validateNullIdStrict S (Signatures.computeNullId S fp) fp ≠ .ok () := by
  have refused : Signatures.validateNullId (nullId S fp) = false :=
    not_valid_of_valid validateNullId_nullId
  have apart : nullId S fp ≠ Signatures.computeNullId S fp := by
    intro same
    exact validateNullId_computeNullId (same ▸ validateNullId_nullId)
  refine ⟨fun one => apart one.crypto_dht, apart, ?_, ?_, ?_⟩
  · intro same
    exact validateNullId_computeNullId (same ▸ validateNullId_fromFingerprint)
  · rw [Signatures.validateNullIdStrict, refused, Bool.false_and, Bool.false_and]
  · cases valid : validateNullId (Signatures.computeNullId S fp) with
    | error text => simp [validateNullIdStrict, valid, bind, Except.bind]
    | ok _ => exact absurd valid validateNullId_computeNullId

def exampleFingerprint : String := "AABBCCDDEEFF00112233445566778899AABBCCDD"

/-- A fingerprint that all validators take has three null ids. -/
theorem three_null_ids :
    (validateFingerprint Signatures.sumScheme exampleFingerprint = .ok () ∧
      utilsValidateFingerprint exampleFingerprint = true ∧
      Signatures.validateFingerprint exampleFingerprint = true) ∧
      ¬ OneNullId Signatures.sumScheme String.toLower exampleFingerprint ∧
      nullId Signatures.sumScheme exampleFingerprint ≠
        nullIdFromFingerprint Signatures.sumScheme String.toLower exampleFingerprint := by
  refine ⟨⟨by decide +kernel, by decide +kernel, by decide +kernel⟩, ?_, by decide +kernel⟩
  intro one
  exact absurd one.accepted.2 (by decide +kernel)

end NullIds
