import Mathlib.Data.Rat.Floor
import Mathlib.Tactic.Linarith
import Mathlib.Tactic.Positivity
import Mathlib.Tactic.FieldSimp
import Mathlib.Tactic.Ring

/-! # Rounding half up to a fixed number of decimals

`roundHalfUp` is the nearest integer, ties upwards; `roundAt scale` rounds to
multiples of `1 / scale`.  Rounding commutes with adding integers, is monotone,
and so draws the line between negative and non-negative half a unit below zero.
-/

set_option autoImplicit false

namespace TimeOff.Lib

/-- The nearest integer, ties upwards. -/
def roundHalfUp (q : ℚ) : ℤ := ⌊q + 1 / 2⌋

/-- The nearest multiple of `1 / scale`, ties upwards. -/
def roundAt (scale : ℕ) (q : ℚ) : ℚ := roundHalfUp (q * scale) / scale

theorem roundHalfUp_sub_int (q : ℚ) (n : ℤ) : roundHalfUp (q - n) = roundHalfUp q - n := by
  simp only [roundHalfUp]
  rw [show q - n + 1 / 2 = q + 1 / 2 - n by ring]
  exact Int.floor_sub_intCast _ _

theorem roundHalfUp_int (n : ℤ) : roundHalfUp n = n := by
  simp only [roundHalfUp]
  rw [Int.floor_intCast_add, show ⌊(1 / 2 : ℚ)⌋ = 0 by norm_num, add_zero]

theorem roundHalfUp_mono {p q : ℚ} (le : p ≤ q) : roundHalfUp p ≤ roundHalfUp q :=
  Int.floor_le_floor (by linarith)

section Scaled

variable {scale : ℕ} (positive : 0 < scale)

include positive

theorem roundAt_sub_int (q : ℚ) (n : ℤ) : roundAt scale (q - n) = roundAt scale q - n := by
  have scaleNonzero : (scale : ℚ) ≠ 0 := by exact_mod_cast positive.ne'
  simp only [roundAt]
  rw [show (q - n) * scale = q * scale - ((n * scale : ℤ) : ℚ) by push_cast; ring,
    roundHalfUp_sub_int]
  push_cast
  field_simp

theorem roundAt_int (n : ℤ) : roundAt scale n = n := by
  have scaleNonzero : (scale : ℚ) ≠ 0 := by exact_mod_cast positive.ne'
  simp only [roundAt]
  rw [show (n : ℚ) * scale = ((n * scale : ℤ) : ℚ) by push_cast; ring, roundHalfUp_int]
  push_cast
  field_simp

/-- What is rounded already stays as it is. -/
theorem roundAt_idem (q : ℚ) : roundAt scale (roundAt scale q) = roundAt scale q := by
  have scaleNonzero : (scale : ℚ) ≠ 0 := by exact_mod_cast positive.ne'
  have rescaled : roundAt scale q * scale = (roundHalfUp (q * scale) : ℚ) := by
    simp only [roundAt]
    field_simp
  rw [roundAt, rescaled, roundHalfUp_int]
  rfl

theorem roundAt_mono {p q : ℚ} (le : p ≤ q) : roundAt scale p ≤ roundAt scale q := by
  have scalePositive : (0 : ℚ) < scale := by exact_mod_cast positive
  simp only [roundAt]
  have scaled : roundHalfUp (p * scale) ≤ roundHalfUp (q * scale) :=
    roundHalfUp_mono (by nlinarith)
  gcongr

theorem roundAt_nonneg {q : ℚ} (nonneg : 0 ≤ q) : 0 ≤ roundAt scale q := by
  have atZero : roundAt scale ((0 : ℤ) : ℚ) = (0 : ℤ) := roundAt_int positive 0
  have rounded := roundAt_mono positive nonneg
  simp only [Int.cast_zero] at atZero
  rwa [atZero] at rounded

/-- A value rounds to something negative exactly below minus half a unit. -/
theorem roundAt_neg_iff (q : ℚ) : roundAt scale q < 0 ↔ q < -(1 / (2 * scale)) := by
  have scalePositive : (0 : ℚ) < scale := by exact_mod_cast positive
  simp only [roundAt, roundHalfUp]
  rw [div_lt_iff₀ scalePositive, zero_mul, ← Int.cast_zero, Int.cast_lt, Int.floor_lt, Int.cast_zero,
    ← lt_neg_iff_add_neg, ← lt_div_iff₀ scalePositive]
  rw [show -(1 / 2) / (scale : ℚ) = -(1 / (2 * scale)) by field_simp]

/-- An integer fits below the rounded value exactly when the rounded remainder is not negative. -/
theorem int_le_roundAt_iff (q : ℚ) (n : ℤ) :
    (n : ℚ) ≤ roundAt scale q ↔ 0 ≤ roundAt scale (q - n) := by
  rw [roundAt_sub_int positive, sub_nonneg]

end Scaled

end TimeOff.Lib
