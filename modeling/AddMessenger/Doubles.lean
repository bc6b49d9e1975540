import Mathlib.Algebra.Order.Field.Power
import Mathlib.Algebra.Order.Round
import Mathlib.Data.Int.Log
import Mathlib.Data.Rat.Floor
import Mathlib.Tactic.Linarith
import Mathlib.Tactic.NormNum
import Mathlib.Tactic.Positivity

/-!
# Double precision

Finite doubles as a sign and a magnitude, and rounding of rationals to the nearest
double, ties to even. Rounding here has no largest exponent: the sums it is used for
stay below the largest double.
-/

namespace Doubles

def halfEven (q : ℚ) : ℤ :=
  let below := ⌊q⌋
  if Int.fract q < 1 / 2 then below
  else if 1 / 2 < Int.fract q then below + 1
  else if below % 2 = 0 then below
  else below + 1

theorem halfEven_bounds (q : ℚ) : ⌊q⌋ ≤ halfEven q ∧ halfEven q ≤ ⌊q⌋ + 1 := by
  simp only [halfEven]
  split_ifs <;> omega

theorem halfEven_intCast (n : ℤ) : halfEven n = n := by
  simp [halfEven]

theorem halfEven_mono {q r : ℚ} (le : q ≤ r) : halfEven q ≤ halfEven r := by
  have floors : ⌊q⌋ ≤ ⌊r⌋ := Int.floor_le_floor le
  rcases floors.lt_or_eq with less | same
  · have upper := (halfEven_bounds q).2
    have lower := (halfEven_bounds r).1
    omega
  · have parts : Int.fract q ≤ Int.fract r := by
      rw [Int.fract, Int.fract, same]
      linarith
    simp only [halfEven, same]
    split_ifs <;> first | omega | (exfalso; linarith)

/-- The exponent of the binade of `x`; below the normal numbers it stays the same. -/
def binade (x : ℚ) : ℤ := max (Int.log 2 x) (-1022)

/-- The distance of neighbouring doubles in the binade of `x`. -/
def ulp (x : ℚ) : ℚ := 2 ^ (binade x - 52)

def roundMagnitude (x : ℚ) : ℚ := halfEven (x / ulp x) * ulp x

def nearest (x : ℚ) : ℚ := if 0 ≤ x then roundMagnitude x else -roundMagnitude (-x)

theorem ulp_pos (x : ℚ) : 0 < ulp x := zpow_pos (by norm_num) _

theorem pow_mul_ulp (n : ℕ) (x : ℚ) : (2 : ℚ) ^ n * ulp x = 2 ^ (binade x - 52 + n) := by
  rw [ulp, add_comm, zpow_add₀ (by norm_num), zpow_natCast]

theorem roundMagnitude_nonneg {x : ℚ} (nonneg : 0 ≤ x) : 0 ≤ roundMagnitude x := by
  have zero : (0 : ℤ) ≤ halfEven (x / ulp x) := by
    have mono := halfEven_mono (div_nonneg nonneg (ulp_pos x).le)
    rwa [show (0 : ℚ) = ((0 : ℤ) : ℚ) by norm_num, halfEven_intCast] at mono
  exact mul_nonneg (by exact_mod_cast zero) (ulp_pos x).le

/-- Rounding does not leave the binade upwards. -/
theorem roundMagnitude_le {x : ℚ} : roundMagnitude x ≤ 2 ^ (binade x + 1) := by
  have inside : x ≤ 2 ^ (53 : ℕ) * ulp x := by
    rw [pow_mul_ulp]
    calc x ≤ 2 ^ (Int.log 2 x + 1) := (Int.lt_zpow_succ_log_self (by norm_num) x).le
      _ ≤ 2 ^ (binade x - 52 + (53 : ℕ)) := by
        apply zpow_le_zpow_right₀ (by norm_num)
        have := le_max_left (Int.log 2 x) (-1022)
        simp only [binade]
        push_cast
        omega
  have few : halfEven (x / ulp x) ≤ 2 ^ 53 := by
    have mono := halfEven_mono ((div_le_iff₀ (ulp_pos x)).mpr inside)
    rwa [show ((2 : ℚ) ^ (53 : ℕ)) = ((2 ^ 53 : ℤ) : ℚ) by norm_num, halfEven_intCast] at mono
  calc roundMagnitude x ≤ 2 ^ (53 : ℕ) * ulp x := by
        apply mul_le_mul_of_nonneg_right _ (ulp_pos x).le
        exact_mod_cast few
    _ = 2 ^ (binade x + 1) := by
        rw [pow_mul_ulp]
        congr 1
        push_cast
        omega

/-- Nor downwards, for a normal number. -/
theorem le_roundMagnitude {x : ℚ} (normal : (2 : ℚ) ^ binade x ≤ x) :
    2 ^ binade x ≤ roundMagnitude x := by
  have unit : (2 : ℚ) ^ binade x = 2 ^ (52 : ℕ) * ulp x := by
    rw [pow_mul_ulp]
    congr 1
    push_cast
    omega
  have many : 2 ^ 52 ≤ halfEven (x / ulp x) := by
    rw [unit] at normal
    have mono := halfEven_mono ((le_div_iff₀ (ulp_pos x)).mpr normal)
    rwa [show ((2 : ℚ) ^ (52 : ℕ)) = ((2 ^ 52 : ℤ) : ℚ) by norm_num, halfEven_intCast] at mono
  rw [unit]
  apply mul_le_mul_of_nonneg_right _ (ulp_pos x).le
  exact_mod_cast many

theorem roundMagnitude_mono {x y : ℚ} (nonneg : 0 ≤ x) (le : x ≤ y) :
    roundMagnitude x ≤ roundMagnitude y := by
  rcases nonneg.eq_or_lt with rfl | positive
  · have zero : roundMagnitude 0 = 0 := by
      have := halfEven_intCast 0
      simp_all [roundMagnitude]
    rw [zero]
    exact roundMagnitude_nonneg le
  have logs : Int.log 2 x ≤ Int.log 2 y := Int.log_mono_right positive le
  have binades : binade x ≤ binade y := max_le_max_right _ logs
  rcases binades.lt_or_eq with less | same
  · -- the larger number lies in a later binade, so a power of two stands between them
    have isLog : binade y = Int.log 2 y := by
      have low := le_max_right (Int.log 2 x) (-1022)
      simp only [binade] at less ⊢
      omega
    have normal : (2 : ℚ) ^ binade y ≤ y := by
      rw [isLog]
      exact Int.zpow_log_le_self (by norm_num) (positive.trans_le le)
    calc roundMagnitude x ≤ 2 ^ (binade x + 1) := roundMagnitude_le
      _ ≤ 2 ^ binade y := zpow_le_zpow_right₀ (by norm_num) less
      _ ≤ roundMagnitude y := le_roundMagnitude normal
  · have units : ulp x = ulp y := by rw [ulp, ulp, same]
    simp only [roundMagnitude, units]
    apply mul_le_mul_of_nonneg_right _ (ulp_pos y).le
    exact_mod_cast halfEven_mono (div_le_div_of_nonneg_right le (ulp_pos y).le)

theorem nearest_mono {x y : ℚ} (le : x ≤ y) : nearest x ≤ nearest y := by
  unfold nearest
  split_ifs with first second
  · exact roundMagnitude_mono first le
  · linarith
  · have := roundMagnitude_nonneg (show 0 ≤ -x by linarith)
    have := roundMagnitude_nonneg ‹0 ≤ y›
    linarith
  · have := roundMagnitude_mono (show 0 ≤ -y by linarith) (neg_le_neg le)
    linarith

/-- A multiple of the distance stays as it is. -/
theorem roundMagnitude_of_multiple {x : ℚ} {k : ℤ} (multiple : x = k * ulp x) :
    roundMagnitude x = x := by
  have quotient : x / ulp x = k := (div_eq_iff (ulp_pos x).ne').mpr multiple
  rw [roundMagnitude, quotient, halfEven_intCast]
  exact multiple.symm

/-- Natural numbers up to `2 ^ 53` are doubles. -/
theorem roundMagnitude_natCast {n : ℕ} (small : n ≤ 2 ^ 53) : roundMagnitude n = n := by
  have isLog : binade n = (Nat.log 2 n : ℤ) := by
    rw [binade, Int.log_natCast]
    omega
  rcases small.lt_or_eq with less | rfl
  · -- below `2 ^ 53` the distance is at most one
    have exponent : Nat.log 2 n ≤ 52 := by
      have := Nat.log_lt_of_lt_pow' (by norm_num) less
      omega
    refine roundMagnitude_of_multiple (k := (n * 2 ^ (52 - Nat.log 2 n) : ℕ)) ?_
    have unit : ((2 : ℚ) ^ (52 - Nat.log 2 n)) * ulp n = 1 := by
      rw [pow_mul_ulp, isLog, ← zpow_zero (2 : ℚ)]
      congr 1
      push_cast [exponent]
      omega
    push_cast
    rw [mul_assoc, unit, mul_one]
  · refine roundMagnitude_of_multiple (k := 2 ^ 52) ?_
    have exponent : Nat.log 2 (2 ^ 53) = 53 := Nat.log_pow (by norm_num) 53
    rw [ulp, isLog, exponent]
    norm_num

theorem nearest_natCast {n : ℕ} (small : n ≤ 2 ^ 53) : nearest n = n := by
  rw [nearest, if_pos n.cast_nonneg, roundMagnitude_natCast small]

def maxFinite : ℚ := (2 ^ 53 - 1) * 2 ^ 971

/-- A finite double. The two zeros differ in their sign. -/
structure F64 where
  negative : Bool
  magnitude : ℚ
  nonneg : 0 ≤ magnitude
  exact : roundMagnitude magnitude = magnitude
  bounded : magnitude ≤ maxFinite

namespace F64

def value (x : F64) : ℚ := if x.negative then -x.magnitude else x.magnitude

theorem natCast_bounded {n : ℕ} (small : n ≤ 2 ^ 53) : (n : ℚ) ≤ maxFinite := by
  have power : (2 : ℚ) ≤ 2 ^ 971 := le_self_pow₀ (by norm_num) (by norm_num)
  calc (n : ℚ) ≤ 2 ^ 53 := by exact_mod_cast small
    _ ≤ (2 ^ 53 - 1) * 2 := by norm_num
    _ ≤ maxFinite := mul_le_mul_of_nonneg_left power (by norm_num)

def ofNat (n : ℕ) (small : n ≤ 2 ^ 53) : F64 :=
  ⟨false, n, n.cast_nonneg, roundMagnitude_natCast small, natCast_bounded small⟩

end F64

end Doubles
