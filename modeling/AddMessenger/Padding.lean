import AddMessenger.MessageStore
import AddMessenger.Utf8Lossy

/-!
# Messages in buckets

`pad_message_bucket` and `unpad_message_bucket` of `client/src/main.rs`. The length of the
padding has one byte, so a receiver strips only what is left of it modulo 256.
-/

namespace MessageStore

open ByteStrings

/-- The bytes of the padding a message is given. -/
def paddingLength (message : String) : Nat :=
  bucketSize ((asBytes message).length + 1) - (asBytes message).length - 1

/-- The message is padded without a panic and comes back. -/
def Lossless (hexError : String → String) (message : String) (random : Nat → UInt8) : Prop :=
  ∃ padded, padMessageBucket message random = some padded ∧
    unpadMessageBucket fromUtf8Lossy hexError padded = .ok message

/-- The padded length is one of the nine sizes, and the message's bucket alone decides it. -/
def SizeHiding (message : String) (random : Nat → UInt8) : Prop :=
  (asBytes message).length < 65536 → ∃ padded bytes,
    padMessageBucket message random = some padded ∧ hexDecode padded = some bytes ∧
    bytes.length = bucketSize ((asBytes message).length + 1) ∧
    bytes.length ∈ [256, 512, 1024, 2048, 4096, 8192, 16384, 32768, 65536]

theorem bucketSize_mem (totalLen : Nat) :
    bucketSize totalLen ∈ [256, 512, 1024, 2048, 4096, 8192, 16384, 32768, 65536] := by
  unfold bucketSize
  split_ifs <;> simp

theorem le_bucketSize {totalLen : Nat} : totalLen ≤ bucketSize totalLen ↔ totalLen ≤ 65536 := by
  unfold bucketSize
  split_ifs <;> omega

variable {message : String} {random : Nat → UInt8}

/-- The header, the message and the padding. -/
def paddedBytes (message : String) (random : Nat → UInt8) : Bytes :=
  UInt8.ofNat (paddingLength message) :: asBytes message ++
    (List.range (paddingLength message)).map random

theorem padMessageBucket_of_lt (short : (asBytes message).length < 65536) :
    padMessageBucket message random = some (hexEncode (paddedBytes message random)) := by
  have fits : ¬ bucketSize ((asBytes message).length + 1) < (asBytes message).length + 1 :=
    Nat.not_lt.mpr (le_bucketSize.mpr short)
  rw [padMessageBucket]
  simp only
  rw [if_neg fits]
  rfl

theorem length_paddedBytes (short : (asBytes message).length < 65536) :
    (paddedBytes message random).length = bucketSize ((asBytes message).length + 1) := by
  have fits : (asBytes message).length + 1 ≤ bucketSize ((asBytes message).length + 1) :=
    le_bucketSize.mpr short
  simp only [paddedBytes, List.length_cons, List.length_append, List.length_map,
    List.length_range, paddingLength]
  omega

theorem sizeHiding (message : String) (random : Nat → UInt8) : SizeHiding message random := by
  intro short
  have sized := @length_paddedBytes message random short
  refine ⟨_, _, padMessageBucket_of_lt short, hexDecode_hexEncode _, sized, ?_⟩
  rw [sized]
  exact bucketSize_mem _

/-- The receiver strips the padding's length modulo 256, and reads the rest of it. -/
theorem unpad_padded (hexError : String → String) (message : String) (random : Nat → UInt8) :
    unpadMessageBucket fromUtf8Lossy hexError (hexEncode (paddedBytes message random)) =
      .ok (message ++ fromUtf8Lossy
        (((List.range (paddingLength message)).map random).take
          (paddingLength message - paddingLength message % 256))) := by
  have header : (UInt8.ofNat (paddingLength message)).toNat = paddingLength message % 256 :=
    UInt8.toNat_ofNat'
  have less := Nat.mod_le (paddingLength message) 256
  have size : (asBytes message ++ (List.range (paddingLength message)).map random).length =
      (asBytes message).length + paddingLength message := by
    rw [List.length_append, List.length_map, List.length_range]
  have enough : ¬ (asBytes message).length + paddingLength message + 1 <
      paddingLength message % 256 + 1 := by omega
  have cut : (asBytes message).length + paddingLength message - paddingLength message % 256 =
      (asBytes message).length + (paddingLength message - paddingLength message % 256) := by omega
  rw [unpadMessageBucket, hexDecode_hexEncode, paddedBytes, List.cons_append]
  simp only [header, size, if_neg enough, cut]
  rw [List.take_length_add_append, fromUtf8Lossy_append]

/-- The rest that is not stripped is empty where the padding's length fits into the header. -/
theorem unpad_padded_iff (hexError : String → String) (message : String) (random : Nat → UInt8) :
    unpadMessageBucket fromUtf8Lossy hexError (hexEncode (paddedBytes message random)) =
      .ok message ↔ paddingLength message < 256 := by
  have less := Nat.mod_le (paddingLength message) 256
  have left : (((List.range (paddingLength message)).map random).take
      (paddingLength message - paddingLength message % 256)).length =
        paddingLength message - paddingLength message % 256 := by
    rw [List.length_take, List.length_map, List.length_range]
    omega
  rw [unpad_padded, Except.ok.injEq, String.append_eq_left_iff, fromUtf8Lossy_eq_empty,
    ← List.length_eq_zero_iff, left]
  omega

/-- A message comes back exactly if it finds a bucket and the padding's length fits into the
header. -/
theorem padding_correct_iff (hexError : String → String) (message : String)
    (random : Nat → UInt8) :
    Lossless hexError message random ∧ SizeHiding message random ↔
      (asBytes message).length < 65536 ∧
        bucketSize ((asBytes message).length + 1) ≤ (asBytes message).length + 256 := by
  rw [and_iff_left (sizeHiding message random)]
  by_cases short : (asBytes message).length < 65536
  · have padding : paddingLength message < 256 ↔
        bucketSize ((asBytes message).length + 1) ≤ (asBytes message).length + 256 := by
      have fits : (asBytes message).length + 1 ≤ bucketSize ((asBytes message).length + 1) :=
        le_bucketSize.mpr short
      rw [paddingLength]
      omega
    rw [and_iff_right short, ← padding, ← unpad_padded_iff hexError message random, Lossless,
      padMessageBucket_of_lt short]
    constructor
    · rintro ⟨padded, same, read⟩
      rwa [← Option.some.inj same] at read
    · exact fun read => ⟨_, rfl, read⟩
  · refine iff_of_false ?_ fun both => short both.1
    rintro ⟨padded, pads, -⟩
    exact short (padMessageBucket_isSome.mp (by rw [pads]; rfl))

/-- A message of 512 bytes comes back with 256 bytes of its padding behind it. -/
theorem not_lossless_long :
    ¬ ∀ (hexError : String → String) message random, Lossless hexError message random := by
  intro all
  obtain ⟨padded, pads, read⟩ := all id (String.ofList (List.replicate 512 'a')) fun _ => 0
  have ascii : ∀ c ∈ List.replicate 512 'a', c.toNat ≤ 127 := by
    intro c member
    rw [List.eq_of_mem_replicate member]
    decide
  have sized : (asBytes (String.ofList (List.replicate 512 'a'))).length = 512 := by
    rw [asBytes_ascii ascii, List.length_map, List.length_replicate]
  have short : (asBytes (String.ofList (List.replicate 512 'a'))).length < 65536 := by omega
  rw [padMessageBucket_of_lt short] at pads
  rw [← Option.some.inj pads, unpad_padded_iff, paddingLength, sized] at read
  exact absurd read (by decide)

end MessageStore
