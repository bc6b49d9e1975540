import Mathlib.Algebra.Field.Basic
import Mathlib.Tactic.FieldSimp
import Mathlib.Tactic.Ring
import Mathlib.Tactic.LinearCombination

/-!
# Secrets on lines

A secret in a field is the value at zero of a line; its shares are the values at other points.
Two shares at different points give the line, one share fits every secret.
-/

namespace LineSharing

universe u

variable {F : Type u} [Field F]

/-- The share at `x`. -/
def share (secret slope x : F) : F := secret + slope * x

/-- The value at zero of the line through two points. -/
def atZero (x₁ y₁ x₂ y₂ : F) : F := y₁ * (x₂ / (x₂ - x₁)) + y₂ * (x₁ / (x₁ - x₂))

variable {secret slope x x₁ x₂ y y₁ y₂ : F}

theorem atZero_share (distinct : x₁ ≠ x₂) :
    atZero x₁ (share secret slope x₁) x₂ (share secret slope x₂) = secret := by
  have right : x₂ - x₁ ≠ 0 := sub_ne_zero.mpr distinct.symm
  have left : x₁ - x₂ ≠ 0 := sub_ne_zero.mpr distinct
  rw [atZero, share, share]
  field_simp
  ring

/-- At every point but zero one slope gives the share. -/
theorem share_eq_iff (nonzero : x ≠ 0) :
    share secret slope x = y ↔ slope = (y - secret) / x := by
  rw [share, eq_div_iff nonzero]
  constructor
  · rintro rfl
    ring
  · intro same
    rw [same]
    ring

/-- Two points give the secret exactly when they are on one of its lines. -/
theorem atZero_eq_iff (distinct : x₁ ≠ x₂) (nonzero : x₁ ≠ 0) :
    atZero x₁ y₁ x₂ y₂ = secret ↔
      ∃ slope, share secret slope x₁ = y₁ ∧ share secret slope x₂ = y₂ := by
  constructor
  · rintro rfl
    have right : x₂ - x₁ ≠ 0 := sub_ne_zero.mpr distinct.symm
    have left : x₁ - x₂ ≠ 0 := sub_ne_zero.mpr distinct
    refine ⟨_, (share_eq_iff nonzero).mpr rfl, ?_⟩
    rw [share, atZero]
    field_simp
    ring
  · rintro ⟨slope, rfl, rfl⟩
    exact atZero_share distinct

/-- Through two points goes one line, and `atZero` is its value at zero. -/
theorem through_iff (distinct : x₁ ≠ x₂) :
    share secret slope x₁ = y₁ ∧ share secret slope x₂ = y₂ ↔
      secret = atZero x₁ y₁ x₂ y₂ ∧ slope = (y₁ - y₂) / (x₁ - x₂) := by
  have right : x₂ - x₁ ≠ 0 := sub_ne_zero.mpr distinct.symm
  have left : x₁ - x₂ ≠ 0 := sub_ne_zero.mpr distinct
  constructor
  · rintro ⟨rfl, rfl⟩
    refine ⟨(atZero_share distinct).symm, ?_⟩
    rw [share, share, eq_div_iff left]
    ring
  · rintro ⟨rfl, rfl⟩
    constructor
    · rw [share, atZero]
      field_simp
      ring
    · rw [share, atZero]
      field_simp
      ring

end LineSharing
