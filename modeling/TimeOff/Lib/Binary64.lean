import Mathlib.Algebra.Order.Field.Power
import Mathlib.Data.Int.Log
import Mathlib.Data.Rat.Floor
import Mathlib.Tactic.Linarith
import Mathlib.Tactic.NormNum
import Mathlib.Tactic.Positivity
import Mathlib.Tactic.Ring

/-! # Numbers of ECMAScript

The finite numbers are those of binary64: an integer of 53 binary digits at a scale
of `2 ^ -1074` or more, less than `2 ^ 1024`.  A rational becomes the nearest of them,
of two the one with an even last digit, or an infinity.  The two zeros are one here.
-/

set_option autoImplicit false

namespace TimeOff.Lib

/-- The nearest integer, ties to the even one. -/
def roundHalfEven (q : ℚ) : ℤ :=
  if q - ⌊q⌋ < 1 / 2 then ⌊q⌋
  else if 1 / 2 < q - ⌊q⌋ then ⌊q⌋ + 1
  else if ⌊q⌋ % 2 = 0 then ⌊q⌋
  else ⌊q⌋ + 1

/-- The scale of the last binary digit that is kept. -/
def lastPlace (x : ℚ) : ℤ := max (Int.log 2 |x| - 52) (-1074)

/-- The nearest number of 53 binary digits, however large. -/
def roundDouble (x : ℚ) : ℚ := roundHalfEven (x / 2 ^ lastPlace x) * 2 ^ lastPlace x

def OnGrid (x : ℚ) : Prop :=
  ∃ mantissa exponent : ℤ, |mantissa| < 2 ^ 53 ∧ -1074 ≤ exponent ∧ x = mantissa * 2 ^ exponent

@[ext] structure Double where
  value : ℚ
  onGrid : OnGrid value
  bounded : |value| < 2 ^ 1024
deriving DecidableEq, Repr

inductive Number where
  | nan
  | infinity (negative : Bool)
  | finite (x : Double)
deriving DecidableEq, Repr

/-! ## Rounding -/

theorem roundHalfEven_le {q : ℚ} {n : ℤ} (le : q ≤ n) : roundHalfEven q ≤ n := by
  have floorLe : ⌊q⌋ ≤ n := Int.floor_le_iff.mpr (by linarith)
  have below := Int.floor_le q
  simp only [roundHalfEven]
  split
  · exact floorLe
  · have notWhole : ⌊q⌋ ≠ n := by
      intro same
      have whole : (⌊q⌋ : ℚ) = n := by rw [same]
      linarith
    split
    · omega
    · split <;> omega

theorem le_roundHalfEven {q : ℚ} {n : ℤ} (le : n ≤ q) : n ≤ roundHalfEven q := by
  have leFloor : n ≤ ⌊q⌋ := Int.le_floor.mpr le
  simp only [roundHalfEven]
  split
  · exact leFloor
  · split
    · omega
    · split <;> omega

theorem roundHalfEven_int (n : ℤ) : roundHalfEven n = n :=
  le_antisymm (roundHalfEven_le (le_refl _)) (le_roundHalfEven (le_refl _))

theorem abs_roundHalfEven_le {q : ℚ} {n : ℤ} (le : |q| ≤ n) : |roundHalfEven q| ≤ n := by
  obtain ⟨below, above⟩ := abs_le.mp le
  exact abs_le.mpr ⟨le_roundHalfEven (by push_cast; exact below), roundHalfEven_le above⟩

theorem le_abs_roundHalfEven {q : ℚ} {n : ℤ} (le : n ≤ |q|) : n ≤ |roundHalfEven q| := by
  cases le_abs.mp le with
  | inl above => exact le_abs.mpr (.inl (le_roundHalfEven above))
  | inr below =>
    apply le_abs.mpr
    right
    have := roundHalfEven_le (q := q) (n := -n) (by push_cast; linarith)
    omega

section Even

variable {q : ℚ} {n : ℤ} (even : n % 2 = 0)

include even

theorem roundHalfEven_le_iff : roundHalfEven q ≤ n ↔ q ≤ n + 1 / 2 := by
  constructor
  · intro rounded
    apply not_lt.mp
    intro above
    have floor : n ≤ ⌊q⌋ := Int.le_floor.mpr (by linarith)
    have next : n + 1 ≤ roundHalfEven q := by
      by_cases whole : ⌊q⌋ = n
      · simp only [roundHalfEven, whole]
        rw [if_neg (by linarith), if_pos (by linarith)]
      · exact le_roundHalfEven (by
          have : ((n + 1 : ℤ) : ℚ) ≤ ⌊q⌋ := by exact_mod_cast (show n + 1 ≤ ⌊q⌋ by omega)
          linarith [Int.floor_le q])
    omega
  · intro le
    by_cases small : q ≤ n
    · exact roundHalfEven_le small
    · have floor : ⌊q⌋ = n := Int.floor_eq_iff.mpr ⟨by linarith, by linarith⟩
      simp only [roundHalfEven, floor, even]
      split
      · exact le_refl n
      · rw [if_neg (by linarith), if_pos trivial]

theorem le_roundHalfEven_iff : n ≤ roundHalfEven q ↔ n - 1 / 2 ≤ q := by
  constructor
  · intro rounded
    apply not_lt.mp
    intro below
    have previous : roundHalfEven q ≤ n - 1 := by
      by_cases whole : ⌊q⌋ = n - 1
      · simp only [roundHalfEven, whole]
        rw [if_pos (by push_cast; linarith)]
      · have floor : ⌊q⌋ < n := Int.floor_lt.mpr (by linarith)
        exact roundHalfEven_le (by
          have : ((⌊q⌋ + 1 : ℤ) : ℚ) ≤ ((n - 1 : ℤ) : ℚ) := by
            exact_mod_cast (show ⌊q⌋ + 1 ≤ n - 1 by omega)
          push_cast at this ⊢
          linarith [Int.lt_floor_add_one q])
    omega
  · intro le
    by_cases large : n ≤ q
    · exact le_roundHalfEven large
    · have floor : ⌊q⌋ = n - 1 := Int.floor_eq_iff.mpr ⟨by push_cast; linarith, by push_cast; linarith⟩
      simp only [roundHalfEven, floor]
      rw [if_neg (by push_cast; linarith)]
      split
      · omega
      · rw [if_neg (by omega)]
        omega

theorem abs_roundHalfEven_le_iff : |roundHalfEven q| ≤ n ↔ |q| ≤ n + 1 / 2 := by
  have negEven : -n % 2 = 0 := by omega
  have lower := le_roundHalfEven_iff (q := q) negEven
  rw [abs_le, abs_le, roundHalfEven_le_iff even, lower]
  push_cast
  constructor
  · rintro ⟨below, above⟩
    exact ⟨by linarith, above⟩
  · rintro ⟨below, above⟩
    exact ⟨by linarith, above⟩

end Even

theorem scale_pos (exponent : ℤ) : (0 : ℚ) < 2 ^ exponent := by positivity

/-- No more than 53 binary digits are kept. -/
theorem scaled_lt (x : ℚ) : |x / 2 ^ lastPlace x| < 2 ^ 53 := by
  rw [abs_div, abs_of_pos (scale_pos _), div_lt_iff₀ (scale_pos _)]
  calc |x| < (2 : ℚ) ^ (Int.log 2 |x| + 1) := by
        exact_mod_cast Int.lt_zpow_succ_log_self (b := 2) (by norm_num) |x|
    _ ≤ 2 ^ (53 + lastPlace x) := by
        apply zpow_le_zpow_right₀ (by norm_num)
        simp only [lastPlace]
        omega
    _ = 2 ^ 53 * 2 ^ lastPlace x := by
        rw [zpow_add₀ two_ne_zero]
        norm_num

theorem roundDouble_onGrid (x : ℚ) : OnGrid (roundDouble x) := by
  have small := abs_lt.mp (scaled_lt x)
  have upper : roundHalfEven (x / 2 ^ lastPlace x) ≤ 2 ^ 53 :=
    roundHalfEven_le (by push_cast; linarith)
  have lower : -2 ^ 53 ≤ roundHalfEven (x / 2 ^ lastPlace x) :=
    le_roundHalfEven (by push_cast; linarith)
  have place : -1074 ≤ lastPlace x := le_max_right _ _
  by_cases carried : |roundHalfEven (x / 2 ^ lastPlace x)| < 2 ^ 53
  · exact ⟨_, _, carried, place, rfl⟩
  · -- the carry to a power of two leaves half the digits at twice the scale
    obtain ⟨half, twice⟩ : ∃ half,
        roundHalfEven (x / 2 ^ lastPlace x) = 2 * half ∧ |half| < 2 ^ 53 := by
      rcases abs_cases (roundHalfEven (x / 2 ^ lastPlace x)) with ⟨same, _⟩ | ⟨same, _⟩
      · exact ⟨2 ^ 52, by omega, by norm_num⟩
      · exact ⟨-2 ^ 52, by omega, by norm_num⟩
    refine ⟨half, lastPlace x + 1, twice.2, by omega, ?_⟩
    rw [roundDouble, twice.1, zpow_add₀ two_ne_zero]
    push_cast
    ring

/-- What has few enough digits stays as it is. -/
theorem roundDouble_of_onGrid {x : ℚ} (onGrid : OnGrid x) : roundDouble x = x := by
  obtain ⟨mantissa, exponent, digits, place, rfl⟩ := onGrid
  by_cases zero : mantissa = 0
  · simp [zero, roundDouble, show roundHalfEven 0 = 0 from roundHalfEven_int 0]
  · have nonzero : (mantissa : ℚ) ≠ 0 := by exact_mod_cast zero
    have short : lastPlace (mantissa * 2 ^ exponent) ≤ exponent := by
      have small : |(mantissa : ℚ) * 2 ^ exponent| < ((2 : ℕ) : ℚ) ^ (53 + exponent) := by
        rw [abs_mul, abs_of_pos (scale_pos exponent), Nat.cast_ofNat, zpow_add₀ two_ne_zero]
        apply mul_lt_mul_of_pos_right _ (scale_pos exponent)
        exact_mod_cast digits
      have log := (Int.lt_zpow_iff_log_lt (by norm_num) (by positivity)).mp small
      simp only [lastPlace]
      omega
    obtain ⟨shift, shifted⟩ := Int.le.dest short
    have whole : mantissa * 2 ^ exponent / 2 ^ lastPlace (mantissa * 2 ^ exponent) =
        ((mantissa * 2 ^ shift : ℤ) : ℚ) := by
      rw [div_eq_iff (scale_pos _).ne']
      push_cast
      rw [mul_assoc, ← zpow_natCast, ← zpow_add₀ two_ne_zero, add_comm, shifted]
    rw [roundDouble, whole, roundHalfEven_int, ← whole, div_mul_cancel₀ _ (scale_pos _).ne']

theorem roundDouble_zero : roundDouble 0 = 0 :=
  roundDouble_of_onGrid ⟨0, 0, by norm_num, by norm_num, by norm_num⟩

/-! ## Bounds -/

theorem abs_roundDouble (x : ℚ) :
    |roundDouble x| = (|roundHalfEven (x / 2 ^ lastPlace x)| : ℤ) * 2 ^ lastPlace x := by
  rw [roundDouble, abs_mul, abs_of_pos (scale_pos _), Int.cast_abs]

theorem abs_scaled (x : ℚ) (place : ℤ) : |x / 2 ^ place| = |x| / 2 ^ place := by
  rw [abs_div, abs_of_pos (scale_pos place)]

theorem log_bounds {x : ℚ} (nonzero : x ≠ 0) :
    (2 : ℚ) ^ Int.log 2 |x| ≤ |x| ∧ |x| < (2 : ℚ) ^ (Int.log 2 |x| + 1) := by
  constructor
  · exact_mod_cast Int.zpow_log_le_self (b := 2) (by norm_num) (abs_pos.mpr nonzero)
  · exact_mod_cast Int.lt_zpow_succ_log_self (b := 2) (by norm_num) |x|

section Powers

variable {x : ℚ} {power : ℤ} (lowest : -1074 ≤ power)

include lowest

/-- Rounding does not pass a power of two upwards. -/
theorem abs_roundDouble_le (le : |x| ≤ 2 ^ power) : |roundDouble x| ≤ 2 ^ power := by
  by_cases zero : x = 0
  · rw [zero, roundDouble_zero, abs_zero]
    exact (scale_pos power).le
  · have log := (zpow_le_zpow_iff_right₀ (by norm_num : (1 : ℚ) < 2)).mp
      (le_trans (log_bounds zero).1 le)
    obtain ⟨shift, shifted⟩ := Int.le.dest (show lastPlace x ≤ power by
      simp only [lastPlace]
      omega)
    have rounded : |roundHalfEven (x / 2 ^ lastPlace x)| ≤ 2 ^ shift := by
      apply abs_roundHalfEven_le
      rw [abs_scaled, div_le_iff₀ (scale_pos _)]
      push_cast
      rwa [← zpow_natCast, ← zpow_add₀ two_ne_zero, add_comm, shifted]
    rw [abs_roundDouble, ← shifted, add_comm, zpow_add₀ two_ne_zero, zpow_natCast]
    exact mul_le_mul_of_nonneg_right (by exact_mod_cast rounded) (scale_pos _).le

/-- Nor downwards. -/
theorem le_abs_roundDouble (le : 2 ^ power ≤ |x|) : 2 ^ power ≤ |roundDouble x| := by
  have nonzero : x ≠ 0 := by
    rintro rfl
    rw [abs_zero] at le
    exact absurd (scale_pos power) (not_lt.mpr le)
  obtain ⟨low, high⟩ := log_bounds nonzero
  have log := (zpow_lt_zpow_iff_right₀ (by norm_num : (1 : ℚ) < 2)).mp (lt_of_le_of_lt le high)
  obtain ⟨shift, shifted⟩ := Int.le.dest (show lastPlace x ≤ Int.log 2 |x| by
    simp only [lastPlace]
    omega)
  have rounded : 2 ^ shift ≤ |roundHalfEven (x / 2 ^ lastPlace x)| := by
    apply le_abs_roundHalfEven
    rw [abs_scaled, le_div_iff₀ (scale_pos _)]
    push_cast
    rwa [← zpow_natCast, ← zpow_add₀ two_ne_zero, add_comm, shifted]
  calc (2 : ℚ) ^ power ≤ 2 ^ Int.log 2 |x| := zpow_le_zpow_right₀ (by norm_num) (by omega)
    _ = 2 ^ shift * 2 ^ lastPlace x := by
        rw [← shifted, add_comm, zpow_add₀ two_ne_zero, zpow_natCast]
    _ ≤ |roundDouble x| := by
        rw [abs_roundDouble]
        exact mul_le_mul_of_nonneg_right (by exact_mod_cast rounded) (scale_pos _).le

end Powers

/-- What rounds to no more than a number of 53 digits, the last one even, is half a unit of that
digit more at most. -/
theorem abs_roundDouble_le_iff {x : ℚ} {mantissa place : ℤ} (normal : 2 ^ 52 ≤ mantissa)
    (digits : mantissa < 2 ^ 53) (even : mantissa % 2 = 0) (lowest : -1074 ≤ place) :
    |roundDouble x| ≤ mantissa * 2 ^ place ↔ |x| ≤ (mantissa + 1 / 2) * 2 ^ place := by
  have unit := scale_pos place
  have binade : (2 : ℚ) ^ (52 + place) ≤ mantissa * 2 ^ place := by
    rw [zpow_add₀ two_ne_zero]
    exact mul_le_mul_of_nonneg_right (by exact_mod_cast normal) unit.le
  have nextBinade : ((mantissa : ℚ) + 1) * 2 ^ place ≤ 2 ^ (53 + place) := by
    rw [zpow_add₀ two_ne_zero]
    exact mul_le_mul_of_nonneg_right (by exact_mod_cast digits) unit.le
  by_cases zero : x = 0
  · rw [zero, roundDouble_zero, abs_zero]
    constructor
    · intro _
      linarith [scale_pos (52 + place)]
    · intro _
      linarith [scale_pos (52 + place)]
  · obtain ⟨low, high⟩ := log_bounds zero
    obtain smaller | same | larger := lt_trichotomy (Int.log 2 |x|) (52 + place)
    · have below : |x| ≤ 2 ^ (52 + place) :=
        le_trans high.le (zpow_le_zpow_right₀ (by norm_num) (by omega))
      have rounded := abs_roundDouble_le (by omega) below
      constructor
      · intro _
        linarith
      · intro _
        linarith
    · -- in the binade of the bound its last digit is the last that is kept
      have lastIs : lastPlace x = place := by
        simp only [lastPlace]
        omega
      rw [abs_roundDouble, lastIs, mul_le_mul_iff_of_pos_right unit, Int.cast_le,
        abs_roundHalfEven_le_iff even, abs_scaled, div_le_iff₀ unit]
    · have above : (2 : ℚ) ^ (53 + place) ≤ |x| :=
        le_trans (zpow_le_zpow_right₀ (by norm_num) (by omega)) low
      have rounded := le_abs_roundDouble (by omega) above
      constructor
      · intro _
        linarith
      · intro _
        linarith

/-! ## Numbers -/

namespace Double

def neg (x : Double) : Double where
  value := -x.value
  onGrid := by
    obtain ⟨mantissa, exponent, digits, place, value⟩ := x.onGrid
    refine ⟨-mantissa, exponent, by rwa [abs_neg], place, ?_⟩
    rw [value, Int.cast_neg, neg_mul]
  bounded := by
    rw [abs_neg]
    exact x.bounded

def abs (x : Double) : Double where
  value := |x.value|
  onGrid := by
    obtain ⟨mantissa, exponent, digits, place, value⟩ := x.onGrid
    refine ⟨|mantissa|, exponent, by rwa [abs_abs], place, ?_⟩
    rw [value, abs_mul, abs_of_pos (scale_pos exponent), Int.cast_abs]
  bounded := by
    rw [abs_abs]
    exact x.bounded

theorem neg_neg (x : Double) : x.neg.neg = x := by
  apply Double.ext
  simp [neg]

end Double

namespace Number

/-- The number of a rational. -/
def ofRat (x : ℚ) : Number :=
  if bounded : |roundDouble x| < 2 ^ 1024 then .finite ⟨roundDouble x, roundDouble_onGrid x, bounded⟩
  else .infinity (x < 0)

theorem ofRat_value (x : Double) : ofRat x.value = .finite x := by
  have exact_ := roundDouble_of_onGrid x.onGrid
  rw [ofRat, dif_pos (by rw [exact_]; exact x.bounded)]
  congr 1
  exact Double.ext exact_

def neg : Number → Number
  | .nan => .nan
  | .infinity negative => .infinity !negative
  | .finite x => .finite x.neg

/-- `Math.abs`. -/
def abs : Number → Number
  | .nan => .nan
  | .infinity _ => .infinity false
  | .finite x => .finite x.abs

/-- Its place among the extended rationals; NaN has none. -/
def extended? : Number → Option (WithBot (WithTop ℚ))
  | .nan => none
  | .infinity negative => some (if negative then ⊥ else ((⊤ : WithTop ℚ) : WithBot (WithTop ℚ)))
  | .finite x => some ((x.value : WithTop ℚ) : WithBot (WithTop ℚ))

/-- The integer that a number is. -/
def whole? : Number → Option ℤ
  | .finite x => if x.value.den = 1 then some x.value.num else none
  | _ => none

/-- `>` on a number and a constant: false for NaN. -/
def exceeds (bound : ℚ) : Number → Bool
  | .nan => false
  | .infinity negative => !negative
  | .finite x => bound < x.value

end Number

/-- `-` on finite numbers. -/
def Double.minus (left right : Double) : Number := .ofRat (left.value - right.value)

end TimeOff.Lib
