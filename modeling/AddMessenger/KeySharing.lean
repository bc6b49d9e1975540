import Mathlib.Data.Fin.VecNotation
import AddMessenger.ByteStrings
import AddMessenger.ByteXor
import AddMessenger.LineSharing
import AddMessenger.Outcomes

/-!
# Keys in three shards

The arithmetic of `crypto/src/snapshot_defense.rs` in GF(2^8), with the reduction polynomial
0x11D, and the 2-of-3 sharing built on it: `split_key` and `reconstruct`. The bytes with
`gf_mul` are a field, and the shards of a key byte are shares on a line over it.

The random coefficients of `split_key` are an argument. Locked memory and its erasure are left
out; `gf_inv` is that of a release build, where zero has the inverse zero.
-/

namespace KeySharing

open ByteStrings ByteXor Outcomes

def keyLen : Nat := 32

def shardLen : Nat := 1 + keyLen

def gfPoly : UInt8 := 0x1D

inductive SnapError where
  | invalidPath
  | statFs (text : String)
  | notEphemeral (fType : Nat)
  | insufficientShards (have_ : Nat)
  | persist (text : String)
  | keyLength (got : Nat)
  | aes (text : String)
  deriving DecidableEq, Repr

/-- The eight rounds of `gf_mul`. -/
def gfMulLoop : Nat → (p a b : UInt8) → UInt8
  | 0, p, _, _ => p
  | rounds + 1, p, a, b =>
    let p := if b &&& 1 = 1 then p ^^^ a else p
    let hi := a &&& 0x80
    let a := a <<< 1
    let a := if hi ≠ 0 then a ^^^ gfPoly else a
    gfMulLoop rounds p a (b >>> 1)

def gfMul (a b : UInt8) : UInt8 := gfMulLoop 8 0 a b

/-- The first byte that multiplies to one. -/
def gfInv (a : UInt8) : UInt8 :=
  (((List.range 255).map fun i => UInt8.ofNat (i + 1)).find? fun i => gfMul a i = 1).getD 0

def gfDiv (a b : UInt8) : UInt8 := gfMul a (gfInv b)

abbrev VolatileKey := Sized UInt8 keyLen

/-- `data[0]` is the index of the share. -/
abbrev Shard := Sized UInt8 shardLen

def Shard.new (x : UInt8) (y : VolatileKey) : Shard :=
  ⟨x :: y.val, by rw [List.length_cons, y.property]; rfl⟩

def Shard.x (s : Shard) : UInt8 := s.val.headD 0

def Shard.y (s : Shard) : Bytes := s.val.drop 1

def Shard.asBytes (s : Shard) : Bytes := s.val

def Shard.fromBytes (bytes : Bytes) : Except SnapError Shard :=
  if sized : bytes.length = shardLen then .ok ⟨bytes, sized⟩ else .error (.keyLength bytes.length)

/-- The shards with the indices 1, 2 and 3; `a` are the coefficients. -/
def splitKey (key a : VolatileKey) (i : Fin 3) : Shard :=
  let x := UInt8.ofNat (i + 1)
  Shard.new x ⟨List.zipWith (fun secret a => secret ^^^ gfMul a x) key.val a.val, by
    rw [List.length_zipWith, key.property, a.property, Nat.min_self]⟩

def reconstruct (shards : List Shard) : Except SnapError VolatileKey :=
  match shards with
  | a :: b :: _ =>
    let denom := a.x ^^^ b.x
    let lambdaA := gfDiv b.x denom
    let lambdaB := gfDiv a.x denom
    .ok ⟨List.zipWith (fun ya yb => gfMul ya lambdaA ^^^ gfMul yb lambdaB) a.y b.y, by
      rw [List.length_zipWith, Shard.y, Shard.y, List.length_drop, List.length_drop, a.property,
        b.property]
      rfl⟩
  | _ => .error (.insufficientShards shards.length)

/-- One round doubles `a`. -/
def gfDouble (a : UInt8) : UInt8 := if a &&& 0x80 ≠ 0 then (a <<< 1) ^^^ gfPoly else a <<< 1

theorem gfMulLoop_succ (rounds : Nat) (p a b : UInt8) :
    gfMulLoop (rounds + 1) p a b =
      gfMulLoop rounds (if b &&& 1 = 1 then p ^^^ a else p) (gfDouble a) (b >>> 1) := rfl

theorem xor_and (a b c : UInt8) : (a ^^^ b) &&& c = (a &&& c) ^^^ (b &&& c) := by
  apply UInt8.toBitVec_inj.mp
  ext i
  simp [Bool.and_xor_distrib_right]

theorem xor_xor_xor (a b c d : UInt8) : (a ^^^ b) ^^^ (c ^^^ d) = (a ^^^ c) ^^^ (b ^^^ d) := by
  ac_rfl

theorem gfDouble_xor (a b : UInt8) : gfDouble (a ^^^ b) = gfDouble a ^^^ gfDouble b := by
  have shifted : (a ^^^ b) <<< 1 = a <<< 1 ^^^ b <<< 1 := UInt8.shiftLeft_xor
  have one : (0x80 : UInt8) ∈ bits := by decide
  have twice : ∀ x y : UInt8, x ^^^ gfPoly ^^^ (y ^^^ gfPoly) = x ^^^ y := by
    intro x y
    rw [xor_xor_xor, UInt8.xor_self, UInt8.xor_zero]
  simp only [gfDouble, xor_and, shifted]
  rcases and_bit 0x80 one a with ha | ha <;> rcases and_bit 0x80 one b with hb | hb <;>
    simp [ha, hb, twice] <;> ac_rfl

/-- The product is additive in the running sum and the first factor. -/
theorem gfMulLoop_xor_left (rounds : Nat) (p q a a' b : UInt8) :
    gfMulLoop rounds (p ^^^ q) (a ^^^ a') b =
      gfMulLoop rounds p a b ^^^ gfMulLoop rounds q a' b := by
  induction rounds generalizing p q a a' b with
  | zero => rfl
  | succ rounds ih =>
    rw [gfMulLoop_succ, gfMulLoop_succ, gfMulLoop_succ, gfDouble_xor]
    split
    · rw [xor_xor_xor, ih]
    · exact ih p q (gfDouble a) (gfDouble a') (b >>> 1)

/-- The product is additive in the running sum and the second factor. -/
theorem gfMulLoop_xor_right (rounds : Nat) (p q a b b' : UInt8) :
    gfMulLoop rounds (p ^^^ q) a (b ^^^ b') =
      gfMulLoop rounds p a b ^^^ gfMulLoop rounds q a b' := by
  induction rounds generalizing p q a b b' with
  | zero => rfl
  | succ rounds ih =>
    have shifted : (b ^^^ b') >>> 1 = b >>> 1 ^^^ b' >>> 1 := UInt8.shiftRight_xor
    have one : (1 : UInt8) ∈ bits := by decide
    rw [gfMulLoop_succ, gfMulLoop_succ, gfMulLoop_succ, shifted, ← ih, xor_and]
    congr 1
    have twice : p ^^^ a ^^^ (q ^^^ a) = p ^^^ q := by
      rw [xor_xor_xor, UInt8.xor_self, UInt8.xor_zero]
    rcases and_bit 1 one b with hb | hb <;> rcases and_bit 1 one b' with hb' | hb' <;>
      simp [hb, hb', twice] <;> ac_rfl

theorem xor_gfMul (a a' b : UInt8) : gfMul (a ^^^ a') b = gfMul a b ^^^ gfMul a' b :=
  gfMulLoop_xor_left 8 0 0 a a' b

theorem gfMul_xor (a b b' : UInt8) : gfMul a (b ^^^ b') = gfMul a b ^^^ gfMul a b' :=
  gfMulLoop_xor_right 8 0 0 a b b'

theorem gfMul_bilinear : Bilinear gfMul := ⟨xor_gfMul, gfMul_xor⟩

theorem zero_gfMul (b : UInt8) : gfMul 0 b = 0 := gfMul_bilinear.zero_left b

theorem gfMul_zero (a : UInt8) : gfMul a 0 = 0 := gfMul_bilinear.zero_right a

theorem gfMul_comm (a b : UInt8) : gfMul a b = gfMul b a := by
  have swapped : Bilinear fun a b => gfMul b a :=
    ⟨fun a a' b => gfMul_xor b a a', fun a b b' => xor_gfMul b b' a⟩
  exact gfMul_bilinear.ext swapped (by decide +kernel) a b

theorem gfMul_one (a : UInt8) : gfMul a 1 = a := by
  induction a using byte_induction with
  | zero => exact zero_gfMul 1
  | bit x bit => exact (show ∀ x ∈ bits, gfMul x 1 = x by decide +kernel) x bit
  | xor x y hx hy => rw [xor_gfMul, hx, hy]

theorem gfMul_gfDouble (a b : UInt8) : gfMul a (gfDouble b) = gfDouble (gfMul a b) := by
  have before : Bilinear fun a b => gfMul a (gfDouble b) :=
    ⟨fun a a' b => xor_gfMul a a' (gfDouble b),
      fun a b b' => by rw [gfDouble_xor, gfMul_xor]⟩
  have after : Bilinear fun a b => gfDouble (gfMul a b) :=
    ⟨fun a a' b => by rw [xor_gfMul, gfDouble_xor], fun a b b' => by rw [gfMul_xor, gfDouble_xor]⟩
  exact before.ext after (by decide +kernel) a b

theorem gfDouble_eq (a : UInt8) : gfDouble a = gfMul a 2 := by
  have two : gfDouble 1 = 2 := by decide
  rw [← two, gfMul_gfDouble, gfMul_one]

/-- What doubling keeps holds of all that is doubled again and again. -/
theorem iterate_induction {P : UInt8 → Prop} (double : ∀ c, P c → P (gfDouble c)) {b : UInt8}
    (start : P b) (n : Nat) : ∀ x ∈ List.iterate gfDouble b n, P x := by
  induction n generalizing b with
  | zero => exact fun x none => absurd none List.not_mem_nil
  | succ n ih =>
    intro x member
    rcases List.mem_cons.mp member with rfl | later
    · exact start
    · exact ih (double b start) x later

/-- The third factor is a sum of doubles of one. -/
theorem gfMul_assoc (a b c : UInt8) : gfMul (gfMul a b) c = gfMul a (gfMul b c) := by
  have doubles : bits = List.iterate gfDouble 1 8 := by decide +kernel
  have double : ∀ c, gfMul (gfMul a b) c = gfMul a (gfMul b c) →
      gfMul (gfMul a b) (gfDouble c) = gfMul a (gfMul b (gfDouble c)) := by
    intro c same
    rw [gfMul_gfDouble, gfMul_gfDouble, gfMul_gfDouble, same]
  have one : gfMul (gfMul a b) 1 = gfMul a (gfMul b 1) := by rw [gfMul_one, gfMul_one]
  induction c using byte_induction with
  | zero => rw [gfMul_zero, gfMul_zero, gfMul_zero]
  | bit x bit => exact iterate_induction double one 8 x (doubles ▸ bit)
  | xor x y hx hy => rw [gfMul_xor, hx, hy, gfMul_xor, gfMul_xor]

/-- The bytes of a list as the bits of one number. -/
def byteSet (bytes : List UInt8) : Nat :=
  bytes.foldl (fun set a => set ||| 1 <<< a.toNat) 0

theorem testBit_byteSet (bytes : List UInt8) (a : UInt8) :
    (byteSet bytes).testBit a.toNat ↔ a ∈ bytes := by
  have general : ∀ set : Nat,
      (bytes.foldl (fun set a => set ||| 1 <<< a.toNat) set).testBit a.toNat ↔
        set.testBit a.toNat ∨ a ∈ bytes := by
    induction bytes with
    | nil => simp
    | cons b rest ih =>
      intro set
      rw [List.foldl_cons, ih, Nat.testBit_or, Nat.one_shiftLeft, Nat.testBit_two_pow,
        List.mem_cons, Bool.or_eq_true, decide_eq_true_iff, or_assoc, UInt8.toNat_inj,
        @eq_comm _ b]
  rw [byteSet, general]
  simp

/-- Two generates the bytes that are not zero. -/
theorem mem_powers {a : UInt8} (nonzero : a ≠ 0) : a ∈ List.iterate gfDouble 1 255 := by
  have all : byteSet (List.iterate gfDouble 1 255) = 2 ^ 256 - (1 + 1) := by decide +kernel
  have positive : a.toNat ≠ 0 := fun zero => nonzero (UInt8.toNat_inj.mp zero)
  have below : a.toNat < 256 := a.toNat_lt
  have unset : Nat.testBit 1 a.toNat = false := by
    rw [← Bool.not_eq_true, Nat.testBit_one_eq_true_iff_self_eq_zero]
    exact positive
  rw [← testBit_byteSet, all, Nat.testBit_two_pow_sub_succ (by decide), unset, Bool.not_false,
    Bool.and_true]
  exact decide_eq_true below

theorem exists_inverse {a : UInt8} (nonzero : a ≠ 0) : ∃ c, gfMul a c = 1 := by
  have two : gfMul 2 142 = 1 := by decide +kernel
  have double : ∀ b, (∃ c, gfMul b c = 1) → ∃ c, gfMul (gfDouble b) c = 1 := by
    rintro b ⟨c, one⟩
    refine ⟨gfMul 142 c, ?_⟩
    rw [gfDouble_eq, gfMul_assoc, ← gfMul_assoc 2, two, gfMul_comm 1, gfMul_one, one]
  exact iterate_induction double ⟨1, gfMul_one 1⟩ 255 a (mem_powers nonzero)

theorem gfMul_gfInv {a : UInt8} (nonzero : a ≠ 0) : gfMul a (gfInv a) = 1 := by
  obtain ⟨c, one⟩ := exists_inverse nonzero
  have searched : c ∈ (List.range 255).map fun i => UInt8.ofNat (i + 1) := by
    have positive : c ≠ 0 := by
      rintro rfl
      rw [gfMul_zero] at one
      cases one
    have low : c.toNat ≠ 0 := fun zero => positive (UInt8.toNat_inj.mp zero)
    have high := c.toNat_lt
    refine List.mem_map.mpr ⟨c.toNat - 1, List.mem_range.mpr (by omega), ?_⟩
    rw [Nat.sub_add_cancel (by omega), UInt8.ofNat_toNat]
  have found : (((List.range 255).map fun i => UInt8.ofNat (i + 1)).find?
      fun i => gfMul a i = 1).isSome :=
    List.find?_isSome.mpr ⟨c, searched, decide_eq_true one⟩
  obtain ⟨i, here⟩ := Option.isSome_iff_exists.mp found
  have holds := List.find?_some here
  rw [gfInv, here]
  show gfMul a i = 1
  exact of_decide_eq_true holds

theorem gfInv_zero : gfInv 0 = 0 := by
  have none : ((List.range 255).map fun i => UInt8.ofNat (i + 1)).find?
      (fun i => gfMul 0 i = 1) = none := by
    rw [List.find?_eq_none]
    intro i _
    simp [zero_gfMul]
  rw [gfInv, none]
  rfl

/-- The bytes as a field: addition is exclusive or, multiplication `gf_mul`. -/
@[ext] structure Gf where
  byte : UInt8
  deriving DecidableEq

namespace Gf

instance : Zero Gf := ⟨⟨0⟩⟩
instance : One Gf := ⟨⟨1⟩⟩
instance : Add Gf := ⟨fun a b => ⟨a.byte ^^^ b.byte⟩⟩
instance : Neg Gf := ⟨id⟩
instance : Mul Gf := ⟨fun a b => ⟨gfMul a.byte b.byte⟩⟩
instance : Inv Gf := ⟨fun a => ⟨gfInv a.byte⟩⟩

@[simp] theorem zero_byte : (0 : Gf).byte = 0 := rfl
@[simp] theorem one_byte : (1 : Gf).byte = 1 := rfl
@[simp] theorem add_byte (a b : Gf) : (a + b).byte = a.byte ^^^ b.byte := rfl
@[simp] theorem neg_byte (a : Gf) : (-a).byte = a.byte := rfl
@[simp] theorem mul_byte (a b : Gf) : (a * b).byte = gfMul a.byte b.byte := rfl
@[simp] theorem inv_byte (a : Gf) : (a⁻¹).byte = gfInv a.byte := rfl

instance : CommRing Gf where
  add_assoc a b c := Gf.ext (UInt8.xor_assoc a.byte b.byte c.byte)
  zero_add a := Gf.ext (@UInt8.zero_xor a.byte)
  add_zero a := Gf.ext (@UInt8.xor_zero a.byte)
  add_comm a b := Gf.ext (UInt8.xor_comm a.byte b.byte)
  neg_add_cancel a := Gf.ext (@UInt8.xor_self a.byte)
  nsmul := nsmulRec
  zsmul := zsmulRec
  left_distrib a b c := Gf.ext (gfMul_xor a.byte b.byte c.byte)
  right_distrib a b c := Gf.ext (xor_gfMul a.byte b.byte c.byte)
  zero_mul a := Gf.ext (zero_gfMul a.byte)
  mul_zero a := Gf.ext (gfMul_zero a.byte)
  mul_assoc a b c := Gf.ext (gfMul_assoc a.byte b.byte c.byte)
  one_mul a := Gf.ext ((gfMul_comm 1 a.byte).trans (gfMul_one a.byte))
  mul_one a := Gf.ext (gfMul_one a.byte)
  mul_comm a b := Gf.ext (gfMul_comm a.byte b.byte)

instance : Field Gf where
  exists_pair_ne := ⟨0, 1, by decide⟩
  mul_inv_cancel a nonzero := Gf.ext (gfMul_gfInv fun zero => nonzero (Gf.ext zero))
  inv_zero := Gf.ext gfInv_zero
  nnqsmul := _
  nnqsmul_def := fun _ _ => rfl
  qsmul := _
  qsmul_def := fun _ _ => rfl

@[simp] theorem sub_byte (a b : Gf) : (a - b).byte = a.byte ^^^ b.byte := by
  rw [sub_eq_add_neg, add_byte, neg_byte]

@[simp] theorem div_byte (a b : Gf) : (a / b).byte = gfDiv a.byte b.byte := by
  rw [div_eq_mul_inv, mul_byte, inv_byte, gfDiv]

end Gf

/-- The index of a shard. -/
def indexOf (i : Fin 3) : UInt8 := UInt8.ofNat (i + 1)

def shardByte (x secret a : UInt8) : UInt8 := secret ^^^ gfMul a x

def secretByte (xa xb ya yb : UInt8) : UInt8 :=
  gfMul ya (gfDiv xb (xa ^^^ xb)) ^^^ gfMul yb (gfDiv xa (xa ^^^ xb))

theorem secretByte_eq_atZero (xa xb ya yb : UInt8) :
    secretByte xa xb ya yb = (LineSharing.atZero (⟨xa⟩ : Gf) ⟨ya⟩ ⟨xb⟩ ⟨yb⟩).byte := by
  rw [LineSharing.atZero, Gf.add_byte, Gf.mul_byte, Gf.mul_byte, Gf.div_byte, Gf.div_byte,
    Gf.sub_byte, Gf.sub_byte, UInt8.xor_comm xb xa, secretByte]

theorem shardByte_eq_iff {x secret a y : UInt8} (nonzero : x ≠ 0) :
    shardByte x secret a = y ↔ a = gfDiv (y ^^^ secret) x := by
  have point : (⟨x⟩ : Gf) ≠ 0 := fun zero => nonzero (congrArg Gf.byte zero)
  have line := @LineSharing.share_eq_iff Gf _ ⟨secret⟩ ⟨a⟩ ⟨x⟩ ⟨y⟩ point
  rw [Gf.ext_iff, Gf.ext_iff, Gf.div_byte, Gf.sub_byte] at line
  exact line

theorem secretByte_eq_iff {xa xb ya yb secret : UInt8} (distinct : xa ≠ xb) (nonzero : xa ≠ 0) :
    secretByte xa xb ya yb = secret ↔
      ∃ a, shardByte xa secret a = ya ∧ shardByte xb secret a = yb := by
  have apart : (⟨xa⟩ : Gf) ≠ ⟨xb⟩ := fun same => distinct (congrArg Gf.byte same)
  have point : (⟨xa⟩ : Gf) ≠ 0 := fun zero => nonzero (congrArg Gf.byte zero)
  have line := @LineSharing.atZero_eq_iff Gf _ ⟨secret⟩ ⟨xa⟩ ⟨xb⟩ ⟨ya⟩ ⟨yb⟩ apart point
  rw [Gf.ext_iff, ← secretByte_eq_atZero] at line
  rw [line]
  constructor
  · rintro ⟨slope, first, second⟩
    exact ⟨slope.byte, congrArg Gf.byte first, congrArg Gf.byte second⟩
  · rintro ⟨a, first, second⟩
    exact ⟨⟨a⟩, Gf.ext first, Gf.ext second⟩

/-- What holds byte by byte holds of the sequences. -/
theorem zipWith_eq_iff {make back : UInt8 → UInt8 → UInt8}
    (one : ∀ s a y, make s a = y ↔ a = back y s) {secret coeffs ys : Bytes}
    (sameCoeffs : coeffs.length = secret.length) (sameYs : ys.length = secret.length) :
    List.zipWith make secret coeffs = ys ↔ coeffs = List.zipWith back ys secret := by
  induction secret generalizing coeffs ys with
  | nil =>
    obtain rfl := List.length_eq_zero_iff.mp sameCoeffs
    obtain rfl := List.length_eq_zero_iff.mp sameYs
    simp
  | cons s rest ih =>
    obtain ⟨a, coeffs, rfl⟩ := List.exists_cons_of_length_eq_add_one sameCoeffs
    obtain ⟨y, ys, rfl⟩ := List.exists_cons_of_length_eq_add_one sameYs
    simp only [List.zipWith_cons_cons, List.cons.injEq, one]
    rw [ih (Nat.succ.inj sameCoeffs) (Nat.succ.inj sameYs)]

theorem zipWith_eq_iff_exists {join make make' : UInt8 → UInt8 → UInt8}
    (one : ∀ s y z, join y z = s ↔ ∃ a, make s a = y ∧ make' s a = z) {secret ys zs : Bytes}
    (sameYs : ys.length = secret.length) (sameZs : zs.length = secret.length) :
    List.zipWith join ys zs = secret ↔ ∃ coeffs, coeffs.length = secret.length ∧
      List.zipWith make secret coeffs = ys ∧ List.zipWith make' secret coeffs = zs := by
  induction secret generalizing ys zs with
  | nil =>
    obtain rfl := List.length_eq_zero_iff.mp sameYs
    obtain rfl := List.length_eq_zero_iff.mp sameZs
    simp
  | cons s rest ih =>
    obtain ⟨y, ys, rfl⟩ := List.exists_cons_of_length_eq_add_one sameYs
    obtain ⟨z, zs, rfl⟩ := List.exists_cons_of_length_eq_add_one sameZs
    simp only [List.zipWith_cons_cons, List.cons.injEq, one]
    rw [ih (Nat.succ.inj sameYs) (Nat.succ.inj sameZs)]
    constructor
    · rintro ⟨⟨a, first, second⟩, coeffs, sized, firsts, seconds⟩
      exact ⟨a :: coeffs, by rw [List.length_cons, sized, List.length_cons],
        by rw [List.zipWith_cons_cons, first, firsts],
        by rw [List.zipWith_cons_cons, second, seconds]⟩
    · rintro ⟨coeffs, sized, firsts, seconds⟩
      obtain ⟨a, coeffs, rfl⟩ := List.exists_cons_of_length_eq_add_one sized
      simp only [List.zipWith_cons_cons, List.cons.injEq] at firsts seconds
      exact ⟨⟨a, firsts.1, seconds.1⟩, coeffs, Nat.succ.inj sized, firsts.2, seconds.2⟩

variable {i j : Fin 3} {key : VolatileKey} {s t : Shard}

theorem indexOf_ne_zero : ∀ i, indexOf i ≠ 0 := by decide

theorem indexOf_injective : ∀ {i j}, i ≠ j → indexOf i ≠ indexOf j := by decide

theorem shard_eq_iff : s = t ↔ s.x = t.x ∧ s.y = t.y := by
  obtain ⟨_ | ⟨x, y⟩, sized⟩ := s
  · cases sized
  obtain ⟨_ | ⟨x', y'⟩, sized'⟩ := t
  · cases sized'
  rw [Subtype.ext_iff]
  exact List.cons.injEq x y x' y' |>.to_iff

theorem length_y (s : Shard) : s.y.length = keyLen := by
  rw [Shard.y, List.length_drop, s.property]
  rfl

theorem splitKey_x (key a : VolatileKey) (i : Fin 3) : (splitKey key a i).x = indexOf i := rfl

theorem splitKey_y (key a : VolatileKey) (i : Fin 3) :
    (splitKey key a i).y = List.zipWith (shardByte (indexOf i)) key.val a.val := rfl

/-- Two shards with different indices give a key exactly when one split of it makes both. -/
theorem reconstruct_eq_iff (distinct : i ≠ j) (sx : s.x = indexOf i) (tx : t.x = indexOf j)
    (rest : List Shard) :
    reconstruct (s :: t :: rest) = .ok key ↔ ∃ a, splitKey key a i = s ∧ splitKey key a j = t := by
  have bytes : reconstruct (s :: t :: rest) = .ok key ↔
      List.zipWith (secretByte (indexOf i) (indexOf j)) s.y t.y = key.val := by
    rw [reconstruct, Except.ok.injEq, Subtype.ext_iff, ← sx, ← tx]
    rfl
  have lines := @zipWith_eq_iff_exists (secretByte (indexOf i) (indexOf j))
    (shardByte (indexOf i)) (shardByte (indexOf j))
    (fun _ _ _ => secretByte_eq_iff (indexOf_injective distinct) (indexOf_ne_zero i))
    key.val s.y t.y (by rw [length_y, key.property]) (by rw [length_y, key.property])
  rw [bytes, lines]
  constructor
  · rintro ⟨coeffs, sized, first, second⟩
    refine ⟨⟨coeffs, sized.trans key.property⟩, ?_, ?_⟩
    · exact shard_eq_iff.mpr ⟨sx.symm, first⟩
    · exact shard_eq_iff.mpr ⟨tx.symm, second⟩
  · rintro ⟨a, rfl, rfl⟩
    exact ⟨a.val, a.property.trans key.property.symm, rfl, rfl⟩

/-- For every shard there is one vector of coefficients. -/
theorem splitKey_eq_iff (sx : s.x = indexOf i) {a : VolatileKey} :
    splitKey key a i = s ↔
      a.val = List.zipWith (fun y secret => gfDiv (y ^^^ secret) (indexOf i)) s.y key.val := by
  have one := @zipWith_eq_iff (shardByte (indexOf i)) (fun y s => gfDiv (y ^^^ s) (indexOf i))
    (fun _ _ _ => shardByte_eq_iff (indexOf_ne_zero i)) key.val a.val s.y
    (a.property.trans key.property.symm) (by rw [length_y, key.property])
  rw [shard_eq_iff, splitKey_x, splitKey_y, one, sx]
  exact and_iff_right rfl

theorem fromBytes_asBytes (s : Shard) : Shard.fromBytes s.asBytes = .ok s := dif_pos s.property

theorem reconstruct_splitKey (distinct : i ≠ j) (key a : VolatileKey) (rest : List Shard) :
    reconstruct (splitKey key a i :: splitKey key a j :: rest) = .ok key :=
  (reconstruct_eq_iff distinct (splitKey_x key a i) (splitKey_x key a j) rest).mpr ⟨a, rfl, rfl⟩

/-- Every shard value is made by one vector of coefficients, whatever the key is. -/
theorem existsUnique_coefficients (i : Fin 3) (y key : VolatileKey) :
    ∃! a, splitKey key a i = Shard.new (indexOf i) y := by
  have sized : (List.zipWith (fun y secret => gfDiv (y ^^^ secret) (indexOf i))
      (Shard.new (indexOf i) y).y key.val).length = keyLen := by
    rw [List.length_zipWith, length_y, key.property, Nat.min_self]
  have sx : (Shard.new (indexOf i) y).x = indexOf i := rfl
  refine ⟨⟨_, sized⟩, (splitKey_eq_iff sx).mpr rfl, fun a made => ?_⟩
  exact Subtype.ext ((splitKey_eq_iff sx).mp made)

/-- Any two of the three shards give the key back, in either order and from their bytes, and a
single shard is made by exactly one vector of coefficients for every key. -/
theorem twoOfThree_custody :
    (∀ (key a : VolatileKey) (i j : Fin 3), i ≠ j →
      reconstruct [splitKey key a i, splitKey key a j] = .ok key ∧
        ∃ s t, Shard.fromBytes (splitKey key a i).asBytes = .ok s ∧
          Shard.fromBytes (splitKey key a j).asBytes = .ok t ∧ reconstruct [s, t] = .ok key) ∧
      ∀ x : UInt8, 1 ≤ x → x ≤ 3 → ∀ y key : VolatileKey,
        ∃! a, ∃ i, splitKey key a i = Shard.new x y := by
  refine ⟨fun key a i j distinct => ?_, fun x low high y key => ?_⟩
  · have whole := reconstruct_splitKey distinct key a []
    exact ⟨whole, _, _, fromBytes_asBytes _, fromBytes_asBytes _, whole⟩
  · have index : ∃ i, indexOf i = x :=
      (show ∀ x : UInt8, 1 ≤ x → x ≤ 3 → ∃ i, indexOf i = x by decide +kernel) x low high
    obtain ⟨i, rfl⟩ := index
    obtain ⟨a, made, only⟩ := existsUnique_coefficients i y key
    refine ⟨a, ⟨i, made⟩, ?_⟩
    rintro a' ⟨i', made'⟩
    have same : i' = i := by
      by_contra distinct
      exact indexOf_injective distinct (congrArg Shard.x made')
    exact only a' (same ▸ made')

def sampleKey : VolatileKey := ⟨List.replicate keyLen 0x53, List.length_replicate⟩

def sampleCoefficients : VolatileKey := ⟨List.replicate keyLen 0xCA, List.length_replicate⟩

/-- The third shard and the first, and one value of the second shard. -/
theorem twoOfThree_custody_sample :
    reconstruct [splitKey sampleKey sampleCoefficients 2, splitKey sampleKey sampleCoefficients 0] =
        .ok sampleKey ∧
      ∃! a, ∃ i, splitKey sampleKey a i = Shard.new 2 sampleCoefficients :=
  ⟨(twoOfThree_custody.1 sampleKey sampleCoefficients 2 0 (by decide)).1,
    twoOfThree_custody.2 2 (by decide) (by decide) sampleCoefficients sampleKey⟩

end KeySharing
