import TimeOff.Lib.Binary64
import TimeOff.Lib.Rounding

/-! # Arithmetic on doubles

Products, quotients and `Math.round` of finite doubles, each the exact result rounded, and how far
that may be off.  Rounding to a fixed number of decimals takes the noise away: what is close enough
to a decimal becomes the double of this decimal.
-/

set_option autoImplicit false

namespace TimeOff.Lib

/-! ## How far rounding is off -/

theorem abs_roundHalfEven_sub_le (q : ℚ) : |roundHalfEven q - q| ≤ 1 / 2 := by
  have below := Int.floor_le q
  have above := Int.lt_floor_add_one q
  rw [abs_le]
  simp only [roundHalfEven]
  split
  · exact ⟨by linarith, by linarith⟩
  · split
    · push_cast
      exact ⟨by linarith, by linarith⟩
    · split
      · exact ⟨by linarith, by linarith⟩
      · push_cast
        exact ⟨by linarith, by linarith⟩

/-- Rounding a number of no more than `2 ^ power` is off by `2 ^ (power - 53)` at most. -/
theorem abs_roundDouble_sub_le {x : ℚ} {power : ℤ} (normal : -1022 ≤ power) (le : |x| ≤ 2 ^ power) :
    |roundDouble x - x| ≤ 2 ^ (power - 53) := by
  by_cases zero : x = 0
  · rw [zero, roundDouble_zero, sub_zero, abs_zero]
    exact (scale_pos _).le
  · have log := (zpow_le_zpow_iff_right₀ (by norm_num : (1 : ℚ) < 2)).mp (le_trans (log_bounds zero).1 le)
    have scaled : roundDouble x - x =
        (roundHalfEven (x / 2 ^ lastPlace x) - x / 2 ^ lastPlace x) * 2 ^ lastPlace x := by
      rw [sub_mul, div_mul_cancel₀ _ (scale_pos _).ne', roundDouble]
    calc |roundDouble x - x|
        = |roundHalfEven (x / 2 ^ lastPlace x) - x / 2 ^ lastPlace x| * 2 ^ lastPlace x := by
          rw [scaled, abs_mul, abs_of_pos (scale_pos _)]
      _ ≤ 1 / 2 * 2 ^ lastPlace x :=
          mul_le_mul_of_nonneg_right (abs_roundHalfEven_sub_le _) (scale_pos _).le
      _ = 2 ^ (lastPlace x - 1) := by
          rw [zpow_sub_one₀ two_ne_zero]
          ring
      _ ≤ 2 ^ (power - 53) := by
          apply zpow_le_zpow_right₀ (by norm_num)
          simp only [lastPlace]
          omega

/-- Whole numbers of 53 binary digits are exact. -/
theorem roundDouble_int {n : ℤ} (digits : |n| < 2 ^ 53) : roundDouble n = n :=
  roundDouble_of_onGrid ⟨n, 0, digits, by norm_num, by simp⟩

theorem roundHalfUp_of_near {q : ℚ} {n : ℤ} (near : |q - n| < 1 / 2) : roundHalfUp q = n := by
  obtain ⟨below, above⟩ := abs_lt.mp near
  exact Int.floor_eq_iff.mpr ⟨by linarith, by linarith⟩

/-! ## Operations -/

namespace Double

/-- The double of a whole number. -/
def whole (n : ℤ) (digits : |n| < 2 ^ 53) : Double where
  value := n
  onGrid := ⟨n, 0, digits, by norm_num, by simp⟩
  bounded := by
    have small : |(n : ℚ)| < 2 ^ 53 := by exact_mod_cast digits
    exact small.trans_le (pow_le_pow_right₀ (by norm_num) (by norm_num))

def times (left right : Double) : Number := .ofRat (left.value * right.value)

/-- `/` by a number that is not zero. -/
def dividedBy (left right : Double) : Number := .ofRat (left.value / right.value)

/-- `Math.round`: the nearest whole number, ties upwards. -/
def mathRound (x : Double) : Number := .ofRat (roundHalfUp x.value)

end Double

namespace Number

/-- A further operation, on what is finite. -/
def andThen (operation : Double → Number) : Number → Number
  | .finite x => operation x
  | other => other

/-- `<` with a constant: false for NaN. -/
def below (bound : ℚ) : Number → Bool
  | .nan => false
  | .infinity negative => negative
  | .finite x => x.value < bound

/-- `Math.round(n * scale) / scale`. -/
def roundAt (scale : Double) (n : Number) : Number :=
  ((n.andThen (·.times scale)).andThen (·.mathRound)).andThen (·.dividedBy scale)

/-- What is not too large becomes a finite number. -/
theorem ofRat_finite {q : ℚ} {power : ℤ} (normal : -1022 ≤ power) (bounded : power ≤ 1023) (le : |q| ≤ 2 ^ power) :
    ∃ x : Double, ofRat q = .finite x ∧ x.value = roundDouble q ∧ |x.value - q| ≤ 2 ^ (power - 53) := by
  have small : |roundDouble q| < 2 ^ 1024 :=
    calc |roundDouble q| ≤ 2 ^ power := abs_roundDouble_le (by omega) le
      _ ≤ (2 : ℚ) ^ (1023 : ℤ) := zpow_le_zpow_right₀ (by norm_num) bounded
      _ < 2 ^ 1024 := by
          rw [← zpow_natCast]
          exact zpow_lt_zpow_right₀ (by norm_num) (by norm_num)
  exact ⟨⟨roundDouble q, roundDouble_onGrid q, small⟩, dif_pos small, rfl, abs_roundDouble_sub_le normal le⟩

theorem ofRat_int {n : ℤ} (digits : |n| < 2 ^ 53) : ofRat n = .finite (Double.whole n digits) :=
  ofRat_value (Double.whole n digits)

end Number

/-! ## Decimals -/

section Decimals

variable {scale : ℕ} {s x : Double} {m : ℤ} (positive : 0 < scale) (scaled : s.value = scale)

include positive scaled

/-- What is close to a decimal is rounded to the double of the decimal. -/
theorem roundAt_of_near (digits : |m| ≤ 2 ^ 48) (near : |x.value - m / scale| ≤ 1 / (4 * scale)) :
    (Number.finite x).roundAt s = .ofRat (m / scale) := by
  have scalePositive : (0 : ℚ) < scale := by exact_mod_cast positive
  have size : |(m : ℚ)| ≤ 2 ^ 48 := by exact_mod_cast digits
  -- the product is off by a quarter before it is rounded, and by an eighth more after
  have product : |x.value * s.value - m| ≤ 1 / 4 := by
    have factored : x.value * s.value - m = (x.value - m / scale) * scale := by
      rw [scaled]
      field_simp
    calc |x.value * s.value - m| = |x.value - m / scale| * scale := by
          rw [factored, abs_mul, abs_of_pos scalePositive]
      _ ≤ 1 / (4 * scale) * scale := mul_le_mul_of_nonneg_right near scalePositive.le
      _ = 1 / 4 := by field_simp
  have productSize : |x.value * s.value| ≤ 2 ^ (50 : ℤ) := by
    calc |x.value * s.value| ≤ |x.value * s.value - m| + |(m : ℚ)| := by
          simpa using abs_add_le (x.value * s.value - m) m
      _ ≤ 2 ^ (50 : ℤ) := by
          norm_num at size ⊢
          linarith
  obtain ⟨multiplied, times, value, off⟩ := Number.ofRat_finite (by norm_num) (by norm_num) productSize
  have whole : roundHalfUp multiplied.value = m := by
    apply roundHalfUp_of_near
    calc |multiplied.value - m| ≤ |multiplied.value - x.value * s.value| + |x.value * s.value - m| :=
          abs_sub_le _ _ _
      _ < 1 / 2 := by
          norm_num at off
          linarith
  have few : |m| < 2 ^ 53 := lt_of_le_of_lt digits (by norm_num)
  have rounded : multiplied.mathRound = .finite (Double.whole m few) := by
    rw [Double.mathRound, whole]
    exact Number.ofRat_int few
  simp only [Number.roundAt, Number.andThen, Double.times, times, rounded, Double.dividedBy, Double.whole]
  rw [scaled]

/-- A whole number taken from the double of a decimal leaves, once rounded, the double of the difference. -/
theorem roundAt_minus {n power : ℤ} {decimal whole : Double} (normal : -1022 ≤ power)
    (stored : Number.ofRat (m / scale) = .finite decimal) (subtracted : whole.value = n)
    (size : |(m : ℚ) / scale| ≤ 2 ^ power) (wholeSize : |(n : ℚ)| ≤ 2 ^ power)
    (fine : (2 : ℚ) ^ (power - 50) ≤ 1 / (4 * scale)) (digits : scale * (2 : ℚ) ^ (power + 1) ≤ 2 ^ 48) :
    (decimal.minus whole).roundAt s = .ofRat ((m : ℚ) / scale - n) := by
  have atLeastOne : (1 : ℚ) ≤ scale := by exact_mod_cast positive
  have scalePositive : (0 : ℚ) < scale := by linarith
  have low : power + 1 ≤ 48 := by
    apply (zpow_le_zpow_iff_right₀ (by norm_num : (1 : ℚ) < 2)).mp
    exact (le_mul_of_one_le_left (scale_pos _).le atLeastOne).trans digits
  have unit : (2 : ℚ) ^ power = 2 ^ (power - 53) * 2 ^ 53 := by
    rw [← zpow_natCast, ← zpow_add₀ two_ne_zero]
    norm_num
  have unitPositive := scale_pos (power - 53)
  obtain ⟨_, finite, _, off⟩ := Number.ofRat_finite normal (by omega) size
  cases stored.symm.trans finite
  have exactSize : |(m : ℚ) / scale - n| ≤ 2 ^ (power + 1) := by
    rw [zpow_add_one₀ two_ne_zero]
    exact (abs_sub _ _).trans (by linarith)
  have error : decimal.value - whole.value - ((m : ℚ) / scale - n) = decimal.value - m / scale := by
    rw [subtracted]
    ring
  have differenceSize : |decimal.value - whole.value| ≤ 2 ^ (power + 2) := by
    calc |decimal.value - whole.value|
        ≤ |decimal.value - whole.value - ((m : ℚ) / scale - n)| + |(m : ℚ) / scale - n| := by
          simpa using abs_add_le (decimal.value - whole.value - ((m : ℚ) / scale - n)) ((m : ℚ) / scale - n)
      _ ≤ 2 ^ (power - 53) + 2 ^ (power + 1) := by
          rw [error]
          exact add_le_add off exactSize
      _ ≤ 2 ^ (power + 2) := by
          rw [zpow_add₀ two_ne_zero, zpow_add₀ two_ne_zero, unit]
          norm_num
          linarith
  obtain ⟨difference, minus, _, offAgain⟩ := Number.ofRat_finite (by omega) (by omega) differenceSize
  have decimals : (m : ℚ) / scale - n = (m - n * scale : ℤ) / scale := by
    push_cast
    field_simp
  rw [Double.minus, minus, decimals]
  apply roundAt_of_near positive scaled
  · have product : |(m : ℚ) / scale - n| * scale ≤ 2 ^ 48 :=
      (mul_le_mul_of_nonneg_right exactSize scalePositive.le).trans (by linarith)
    rw [decimals, abs_div, abs_of_pos scalePositive, div_mul_cancel₀ _ scalePositive.ne'] at product
    exact_mod_cast product
  · rw [← decimals]
    calc |difference.value - ((m : ℚ) / scale - n)|
        ≤ |difference.value - (decimal.value - whole.value)| +
            |decimal.value - whole.value - ((m : ℚ) / scale - n)| := abs_sub_le _ _ _
      _ ≤ 2 ^ (power + 2 - 53) + 2 ^ (power - 53) := by
          rw [error]
          exact add_le_add offAgain off
      _ ≤ 2 ^ (power - 50) := by
          rw [show power + 2 - 53 = power - 53 + 2 by ring, show power - 50 = power - 53 + 3 by ring,
            zpow_add₀ two_ne_zero, zpow_add₀ two_ne_zero]
          norm_num
          linarith
      _ ≤ 1 / (4 * scale) := fine

omit scaled in
/-- A decimal and its double compare alike with whole numbers. -/
theorem below_ofRat {power bound : ℤ} (normal : -1022 ≤ power) (size : |(m : ℚ) / scale| ≤ 2 ^ power)
    (fine : (2 : ℚ) ^ (power - 53) < 1 / scale) :
    (Number.ofRat (m / scale)).below bound = decide ((m : ℚ) / scale < bound) := by
  have scalePositive : (0 : ℚ) < scale := by exact_mod_cast positive
  have low : power - 53 < 0 := by
    apply (zpow_lt_zpow_iff_right₀ (by norm_num : (1 : ℚ) < 2)).mp
    have atLeastOne : (1 : ℚ) ≤ scale := by exact_mod_cast positive
    exact fine.trans_le (by rw [zpow_zero, div_le_one scalePositive]; exact atLeastOne)
  obtain ⟨x, finite, value, off⟩ := Number.ofRat_finite normal (by omega) size
  obtain ⟨below, above⟩ := abs_le.mp off
  have unit : (scale : ℚ) * (1 / scale) = 1 := by field_simp
  rw [finite, Number.below, decide_eq_decide]
  obtain less | same | more := lt_trichotomy m (bound * scale)
  · have gap : (m : ℚ) / scale ≤ bound - 1 / scale := by
      rw [div_le_iff₀ scalePositive, sub_mul, mul_comm (1 / (scale : ℚ)), unit]
      exact_mod_cast (show m ≤ bound * scale - 1 by omega)
    exact ⟨fun _ => by linarith, fun _ => by linarith⟩
  · -- the decimal is whole, so its double is itself
    have itself : (m : ℚ) / scale = bound := by
      rw [same]
      push_cast
      field_simp
    rw [itself] at value size
    have digits : |bound| < 2 ^ 53 := by
      have large : |(bound : ℚ)| < 2 ^ (53 : ℤ) :=
        size.trans_lt (zpow_lt_zpow_right₀ (by norm_num) (by omega))
      exact_mod_cast large
    rw [value, itself, roundDouble_int digits]
  · have gap : (bound : ℚ) + 1 / scale ≤ m / scale := by
      rw [le_div_iff₀ scalePositive, add_mul, mul_comm (1 / (scale : ℚ)), unit]
      exact_mod_cast (show bound * scale + 1 ≤ m by omega)
    exact ⟨fun _ => by linarith, fun _ => by linarith⟩

end Decimals

end TimeOff.Lib
