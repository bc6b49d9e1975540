import AddMessenger.ByteStrings
import Mathlib.Data.FinEnum
import Mathlib.Data.List.GetD
import Mathlib.Data.UInt

/-!
# Bytes under exclusive or

Every byte is a sum of powers of two, so what is additive is known from eight bytes. A mask
that is applied twice to a sequence is gone. A comparison that never stops early collects the
differences of all places.
-/

namespace ByteXor

open ByteStrings

/-- The bytes with one bit. -/
def bits : List UInt8 := [1, 2, 4, 8, 16, 32, 64, 128]

theorem and_bit : ∀ b ∈ bits, ∀ x : UInt8, x &&& b = 0 ∨ x &&& b = b := by decide +kernel

theorem eq_xor_bits : ∀ x : UInt8, x = (x &&& 1) ^^^ (x &&& 2) ^^^ (x &&& 4) ^^^ (x &&& 8) ^^^
    (x &&& 16) ^^^ (x &&& 32) ^^^ (x &&& 64) ^^^ (x &&& 128) := by
  decide +kernel

/-- Induction over sums of bits. -/
theorem byte_induction {P : UInt8 → Prop} (zero : P 0) (bit : ∀ b ∈ bits, P b)
    (xor : ∀ x y, P x → P y → P (x ^^^ y)) (x : UInt8) : P x := by
  have part : ∀ b ∈ bits, P (x &&& b) := by
    intro b member
    rcases and_bit b member x with none | whole
    · rwa [none]
    · rw [whole]
      exact bit b member
  have sum : P ((x &&& 1) ^^^ (x &&& 2) ^^^ (x &&& 4) ^^^ (x &&& 8) ^^^ (x &&& 16) ^^^
      (x &&& 32) ^^^ (x &&& 64) ^^^ (x &&& 128)) := by
    refine xor _ _ (xor _ _ (xor _ _ (xor _ _ (xor _ _ (xor _ _ (xor _ _ ?_ ?_) ?_) ?_) ?_) ?_)
      ?_) ?_ <;> exact part _ (by decide)
  rw [eq_xor_bits x]
  exact sum

/-- Additive in both arguments. -/
structure Bilinear (f : UInt8 → UInt8 → UInt8) : Prop where
  left : ∀ a a' b, f (a ^^^ a') b = f a b ^^^ f a' b
  right : ∀ a b b', f a (b ^^^ b') = f a b ^^^ f a b'

namespace Bilinear

variable {f g : UInt8 → UInt8 → UInt8}

theorem zero_left (bilinear : Bilinear f) (b : UInt8) : f 0 b = 0 := by
  have twice := bilinear.left 0 0 b
  rwa [UInt8.xor_self, UInt8.xor_self] at twice

theorem zero_right (bilinear : Bilinear f) (a : UInt8) : f a 0 = 0 := by
  have twice := bilinear.right a 0 0
  rwa [UInt8.xor_self, UInt8.xor_self] at twice

/-- The 64 pairs of single bits decide. -/
theorem ext (first : Bilinear f) (second : Bilinear g)
    (bitBit : ∀ x ∈ bits, ∀ y ∈ bits, f x y = g x y) (a b : UInt8) : f a b = g a b := by
  have bitAny : ∀ x ∈ bits, f x b = g x b := by
    intro x member
    induction b using byte_induction with
    | zero => rw [first.zero_right, second.zero_right]
    | bit y bit => exact bitBit x member y bit
    | xor y z hy hz => rw [first.right, second.right, hy, hz]
  induction a using byte_induction with
  | zero => rw [first.zero_left, second.zero_left]
  | bit x bit => exact bitAny x bit
  | xor x y hx hy => rw [first.left, second.left, hx, hy]

end Bilinear

def xorBytes (data mask : List UInt8) : List UInt8 := List.zipWith (· ^^^ ·) data mask

theorem length_xorBytes (data mask : List UInt8) :
    (xorBytes data mask).length = min data.length mask.length := List.length_zipWith

/-- Any content can be reached with a mask. -/
theorem xorBytes_xorBytes {data wanted : List UInt8} (same : data.length = wanted.length) :
    xorBytes data (xorBytes data wanted) = wanted := by
  induction data generalizing wanted with
  | nil => exact (List.length_eq_zero_iff.mp same.symm).symm
  | cons x rest ih =>
    cases wanted with
    | nil => cases same
    | cons y more =>
      have here : x ^^^ (x ^^^ y) = y := by rw [← UInt8.xor_assoc, UInt8.xor_self, UInt8.zero_xor]
      simp only [xorBytes, List.zipWith_cons_cons, here] at ih ⊢
      rw [ih (Nat.succ.inj same)]

theorem mul_add_xor {x y a b : Nat} (ha : a < 256) (hb : b < 256) :
    (x * 256 + a) ^^^ (y * 256 + b) = (x ^^^ y) * 256 + (a ^^^ b) := by
  have low : a ^^^ b < 2 ^ 8 := Nat.xor_lt_two_pow ha hb
  apply Nat.eq_of_testBit_eq
  intro i
  rw [Nat.testBit_xor, Nat.mul_comm x, Nat.mul_comm y, Nat.mul_comm (x ^^^ y),
    show (256 : Nat) = 2 ^ 8 from rfl, Nat.testBit_two_pow_mul_add x ha,
    Nat.testBit_two_pow_mul_add y hb, Nat.testBit_two_pow_mul_add _ low]
  split
  · rw [Nat.testBit_xor]
  · rw [Nat.testBit_xor]

theorem xorBytes_concat {a b : List UInt8} (same : a.length = b.length) (x y : UInt8) :
    xorBytes (a ++ [x]) (b ++ [y]) = xorBytes a b ++ [x ^^^ y] :=
  List.zipWith_append same

/-- A number under a mask, byte by byte. -/
theorem fromBeBytes_xorBytes {a b : List UInt8} (same : a.length = b.length) :
    fromBeBytes (xorBytes a b) = fromBeBytes a ^^^ fromBeBytes b := by
  induction a using List.reverseRecOn generalizing b with
  | nil =>
    rw [List.length_eq_zero_iff.mp same.symm]
    rfl
  | append_singleton front x ih =>
    cases b using List.reverseRecOn with
    | nil => simp at same
    | append_singleton front' y =>
      rw [List.length_append, List.length_append, List.length_singleton, List.length_singleton]
        at same
      have fronts := Nat.add_right_cancel same
      rw [xorBytes_concat fronts, fromBeBytes_concat, fromBeBytes_concat, fromBeBytes_concat,
        ih fronts, mul_add_xor x.toNat_lt y.toNat_lt, UInt8.toNat_xor]

theorem foldl_or_eq_zero_iff (f : Nat → UInt8) (indices : List Nat) (acc : UInt8) :
    indices.foldl (fun acc i => acc ||| f i) acc = 0 ↔ acc = 0 ∧ ∀ i ∈ indices, f i = 0 := by
  induction indices generalizing acc with
  | nil => simp
  | cons i rest ih =>
    rw [List.foldl_cons, ih, UInt8.or_eq_zero_iff, List.forall_mem_cons, and_assoc]

/-- Sequences agree at every place, the shorter continued with zeros, where one is the other
with zeros behind it. -/
theorem getD_agree_iff {a b : List UInt8} (nonzero : 0 ∉ a) :
    (∀ i < max a.length b.length, a.getD i 0 = b.getD i 0) ↔
      ∃ n, b = a ++ List.replicate n 0 := by
  constructor
  · intro agree
    induction a generalizing b with
    | nil =>
      refine ⟨b.length, ?_⟩
      rw [List.nil_append]
      refine List.eq_replicate_length.mpr fun x member => ?_
      obtain ⟨i, bound, rfl⟩ := List.getElem_of_mem member
      have here := agree i (by omega)
      rw [List.getD_nil, List.getD_eq_getElem _ _ bound] at here
      exact here.symm
    | cons x rest ih =>
      obtain ⟨here, later⟩ := List.ne_and_not_mem_of_not_mem_cons nonzero
      cases b with
      | nil => exact absurd (agree 0 (by simp)).symm here
      | cons y more =>
        have first : x = y := agree 0 (by simp)
        obtain ⟨n, same⟩ := ih (b := more) later fun i bound =>
          agree (i + 1) (by simp only [List.length_cons]; omega)
        exact ⟨n, by rw [same, first, List.cons_append]⟩
  · rintro ⟨n, rfl⟩ i -
    by_cases inside : i < a.length
    · rw [List.getD_append _ _ _ _ inside]
    · rw [List.getD_append_right _ _ _ _ (by omega), List.getD_eq_default _ _ (by omega),
        List.getD_eq_getElem?_getD, List.getElem?_getD_replicate_default_eq]

end ByteXor
