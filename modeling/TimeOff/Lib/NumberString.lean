import TimeOff.Lib.Binary64
import TimeOff.Lib.Digits

/-! # Numbers and strings of ECMAScript

`Number::toString` spells a number with the fewest digits that read back as it, and
`stringToNumber` is `Number` on a string: white space around a decimal literal, an
infinity or an integer in base 2, 8 or 16, and NaN for anything else.  What is spelled
reads back, and where a point stands in a spelling, a digit follows.
-/

set_option autoImplicit false

namespace TimeOff.Lib

/-! ## From numbers to strings -/

/-- A positive number is less than `10` to this, and not less than a tenth of it. -/
def decimalPoint (x : ℚ) : ℤ := Int.log 10 x + 1

/-- The two numbers of `k` digits around `x`, in units of the last digit, the closer one first. -/
def candidates (x : ℚ) (k : ℕ) : List ℕ :=
  let scaled := x / 10 ^ (decimalPoint x - k)
  let lower := ⌊scaled⌋₊
  if scaled - lower < 1 / 2 ∨ scaled - lower = 1 / 2 ∧ lower % 2 = 0 then [lower, lower + 1]
  else [lower + 1, lower]

/-- `k` digits that round to `x`, the closest to it if there are two. -/
def digitsOf? (x : ℚ) (k : ℕ) : Option ℕ :=
  (candidates x k).find? fun s => roundDouble (s * 10 ^ (decimalPoint x - k)) = x

/-- The fewest digits that round to `x`, with their number.  `x` is itself a decimal of no more
than 1074 places. -/
def shortest? (x : ℚ) : Option (ℕ × ℕ) :=
  (List.range' 1 ((decimalPoint x).toNat + 1074)).findSome? fun k =>
    (digitsOf? x k).map fun s => (s, k)

/-- The digits of a positive number with the place of the decimal point. -/
def decimal (x : ℚ) : List Char × ℤ :=
  match shortest? x with
  | some (s, k) =>
    -- the upper neighbour of 9 is 10, one digit of the next order
    if s = 10 ^ k then (padded k (10 ^ (k - 1)), decimalPoint x + 1)
    else (padded k s, decimalPoint x)
  | none => ([], 0)

/-- Fixed notation up to 21 digits before the point and 5 zeros behind it, else an exponent. -/
def spellDecimal (digits : List Char) (n : ℤ) : List Char :=
  if -5 ≤ n ∧ n ≤ 21 then
    if digits.length ≤ n then digits ++ List.replicate (n.toNat - digits.length) '0'
    else if 0 < n then digits.take n.toNat ++ '.' :: digits.drop n.toNat
    else '0' :: '.' :: List.replicate (-n).toNat '0' ++ digits
  else
    let exponent := 'e' :: (if n < 0 then '-' else '+') :: Nat.toDigits 10 (n - 1).natAbs
    match digits with
    | first :: [] => first :: exponent
    | first :: rest => first :: '.' :: rest ++ exponent
    | [] => exponent

/-- `Number::toString` on a finite number. -/
def Double.spelling (x : Double) : List Char :=
  if x.value = 0 then ['0']
  else if x.value < 0 then
    let (digits, n) := decimal (-x.value)
    '-' :: spellDecimal digits n
  else
    let (digits, n) := decimal x.value
    spellDecimal digits n

/-- `Number::toString`. -/
def Number.toString : Number → String
  | .nan => "NaN"
  | .infinity negative => if negative then "-Infinity" else "Infinity"
  | .finite x => String.ofList x.spelling

/-! ## From strings to numbers -/

/-- White space and line terminators. -/
def isSpace (char : Char) : Bool :=
  [9, 10, 11, 12, 13, 32, 160, 5760, 8232, 8233, 8239, 8287, 12288, 65279].contains char.toNat ||
    (8192 ≤ char.toNat && char.toNat ≤ 8202)

/-- The characters between the blanks before and behind them. -/
def trimmedOf (blank : Char → Bool) (chars : List Char) : List Char :=
  (((chars.dropWhile blank).reverse).dropWhile blank).reverse

def trimmed (chars : List Char) : List Char := trimmedOf isSpace chars

/-- At least one digit. -/
def decimalDigits? (chars : List Char) : Option ℤ :=
  if chars = [] then none else digits? chars

def exponentPart? (chars : List Char) : Option ℤ :=
  match chars with
  | [] => some 0
  | mark :: rest =>
    if mark = 'e' ∨ mark = 'E' then
      match rest with
      | '-' :: digits => (decimalDigits? digits).map fun exponent => -exponent
      | '+' :: digits => decimalDigits? digits
      | digits => decimalDigits? digits
    else none

/-- Digits with a point among them or before or behind them, and an exponent. -/
def unsignedDecimal? (chars : List Char) : Option ℚ :=
  let whole := chars.takeWhile Char.isDigit
  let (fraction, rest) :=
    match chars.dropWhile Char.isDigit with
    | '.' :: rest => (rest.takeWhile Char.isDigit, rest.dropWhile Char.isDigit)
    | rest => ([], rest)
  do
    let mantissa ← decimalDigits? (whole ++ fraction)
    let exponent ← exponentPart? rest
    some ((mantissa : ℚ) * 10 ^ (exponent - fraction.length))

def unsignedNumber (chars : List Char) : Number :=
  if chars = "Infinity".toList then .infinity false
  else
    match unsignedDecimal? chars with
    | some value => .ofRat value
    | none => .nan

def digitValue? (char : Char) : Option ℕ :=
  if char.isDigit then some (char.toNat - '0'.toNat)
  else if 'a' ≤ char ∧ char ≤ 'f' then some (char.toNat - 'a'.toNat + 10)
  else if 'A' ≤ char ∧ char ≤ 'F' then some (char.toNat - 'A'.toNat + 10)
  else none

/-- At least one digit of the base. -/
def integerIn? (base : ℕ) (chars : List Char) : Option ℕ :=
  if chars = [] then none
  else
    chars.foldlM (fun value char => do
      let digit ← digitValue? char
      if digit < base then some (value * base + digit) else none) 0

def baseOf? (mark : Char) : Option ℕ :=
  if mark = 'x' ∨ mark = 'X' then some 16
  else if mark = 'o' ∨ mark = 'O' then some 8
  else if mark = 'b' ∨ mark = 'B' then some 2
  else none

def numericLiteral (chars : List Char) : Number :=
  match chars with
  | [] => .ofRat 0
  | '+' :: rest => unsignedNumber rest
  | '-' :: rest => (unsignedNumber rest).neg
  | '0' :: mark :: rest =>
    match baseOf? mark with
    | some base =>
      match integerIn? base rest with
      | some value => .ofRat value
      | none => .nan
    | none => unsignedNumber chars
  | _ => unsignedNumber chars

/-- `Number(s)`. -/
def stringToNumber (s : String) : Number := numericLiteral (trimmed s.toList)

/-! ## The fewest digits -/

theorem decimalPoint_spec {x : ℚ} (positive : 0 < x) :
    10 ^ (decimalPoint x - 1) ≤ x ∧ x < 10 ^ decimalPoint x := by
  constructor
  · have low := Int.zpow_log_le_self (b := 10) (by norm_num) positive
    rw [decimalPoint, Int.add_sub_cancel]
    exact_mod_cast low
  · have high := Int.lt_zpow_succ_log_self (b := 10) (by norm_num) x
    exact_mod_cast high

theorem candidates_le {x : ℚ} (positive : 0 < x) {k s : ℕ} (candidate : s ∈ candidates x k) :
    s ≤ 10 ^ k := by
  have unit : (0 : ℚ) < 10 ^ (decimalPoint x - k) := by positivity
  have small : ⌊x / 10 ^ (decimalPoint x - k)⌋₊ < 10 ^ k := by
    rw [Nat.floor_lt (by positivity), div_lt_iff₀ unit]
    push_cast
    rw [← zpow_natCast, ← zpow_add₀ (by norm_num), add_sub_cancel]
    exact (decimalPoint_spec positive).2
  simp only [candidates] at candidate
  split at candidate
  · simp only [List.mem_cons, List.not_mem_nil, or_false] at candidate
    omega
  · simp only [List.mem_cons, List.not_mem_nil, or_false] at candidate
    omega

theorem floor_mem_candidates (x : ℚ) (k : ℕ) : ⌊x / 10 ^ (decimalPoint x - k)⌋₊ ∈ candidates x k := by
  simp only [candidates]
  split <;> simp

/-- A number on the grid is a decimal of 1074 places. -/
theorem whole_of_onGrid {x : ℚ} (onGrid : OnGrid x) (positive : 0 < x) {places : ℕ}
    (enough : 1074 ≤ places) : ∃ n : ℕ, x * 10 ^ places = n := by
  obtain ⟨mantissa, exponent, -, place, rfl⟩ := onGrid
  obtain ⟨shift, shifted⟩ := Int.le.dest (show 0 ≤ exponent + places by omega)
  have whole : (mantissa : ℚ) * 2 ^ exponent * 10 ^ places =
      ((mantissa * 2 ^ shift * 5 ^ places : ℤ) : ℚ) := by
    have ten : (10 : ℚ) ^ places = 2 ^ (places : ℤ) * 5 ^ places := by
      rw [zpow_natCast, ← mul_pow]
      norm_num
    push_cast
    rw [ten, ← mul_assoc, mul_assoc (mantissa : ℚ), ← zpow_add₀ two_ne_zero, ← shifted, zero_add,
      zpow_natCast]
  have nonneg : 0 ≤ mantissa * 2 ^ shift * 5 ^ places := by
    have : (0 : ℚ) ≤ ((mantissa * 2 ^ shift * 5 ^ places : ℤ) : ℚ) := by
      rw [← whole]
      positivity
    exact_mod_cast this
  obtain ⟨n, natural⟩ := Int.eq_ofNat_of_zero_le nonneg
  exact ⟨n, by rw [whole, natural, Int.cast_natCast]⟩

/-- The search ends, at the number itself if not before. -/
theorem shortest?_spec {x : ℚ} (onGrid : OnGrid x) (positive : 0 < x) : ∃ s k,
    shortest? x = some (s, k) ∧ 1 ≤ k ∧ s ≤ 10 ^ k ∧
      roundDouble (s * 10 ^ (decimalPoint x - k)) = x := by
  cases found : shortest? x with
  | none =>
    exfalso
    have last := List.findSome?_eq_none_iff.mp found ((decimalPoint x).toNat + 1074)
      (by rw [List.mem_range'_1]; omega)
    rw [Option.map_eq_none_iff, digitsOf?, List.find?_eq_none] at last
    apply last _ (floor_mem_candidates x _)
    obtain ⟨places, placesEq⟩ := Int.le.dest
      (show (1074 : ℤ) ≤ ((decimalPoint x).toNat + 1074 : ℕ) - decimalPoint x by push_cast; omega)
    obtain ⟨n, whole⟩ := whole_of_onGrid onGrid positive (show 1074 ≤ 1074 + places by omega)
    have unit : decimalPoint x - ((decimalPoint x).toNat + 1074 : ℕ) = -((1074 + places : ℕ) : ℤ) := by
      push_cast at placesEq ⊢
      omega
    rw [unit, zpow_neg, zpow_natCast, div_inv_eq_mul, whole, Nat.floor_natCast, ← whole,
      mul_inv_cancel_right₀ (by positivity), roundDouble_of_onGrid onGrid]
    simp
  | some digits =>
    obtain ⟨s, k⟩ := digits
    refine ⟨s, k, rfl, ?_⟩
    obtain ⟨k', mem, chosen⟩ := List.exists_of_findSome?_eq_some found
    obtain ⟨s', foundDigits, pair⟩ := Option.map_eq_some_iff.mp chosen
    cases pair
    have candidate := List.mem_of_find?_eq_some foundDigits
    refine ⟨(List.mem_range'_1.mp mem).1, candidates_le positive candidate, ?_⟩
    simpa using List.find?_some foundDigits

/-- `k` digits and the place of the point make a number that rounds to `x`. -/
theorem decimal_spec {x : ℚ} (onGrid : OnGrid x) (positive : 0 < x) : ∃ s k n,
    decimal x = (padded k s, n) ∧ 1 ≤ k ∧ s < 10 ^ k ∧ roundDouble (s * 10 ^ (n - k)) = x := by
  obtain ⟨s, k, found, some_, small, rounds⟩ := shortest?_spec onGrid positive
  simp only [decimal, found]
  by_cases carried : s = 10 ^ k
  · rw [if_pos carried]
    have shorter : 10 ^ (k - 1) < 10 ^ k := Nat.pow_lt_pow_right (by norm_num) (by omega)
    refine ⟨10 ^ (k - 1), k, decimalPoint x + 1, rfl, some_, shorter, ?_⟩
    have same : ((10 ^ (k - 1) : ℕ) : ℚ) * 10 ^ (decimalPoint x + 1 - k) =
        (s : ℚ) * 10 ^ (decimalPoint x - k) := by
      rw [carried]
      push_cast
      rw [← zpow_natCast, ← zpow_natCast, ← zpow_add₀ (by norm_num), ← zpow_add₀ (by norm_num)]
      congr 1
      omega
    rw [same]
    exact rounds
  · rw [if_neg carried]
    exact ⟨s, k, decimalPoint x, rfl, some_, by omega, rounds⟩

end TimeOff.Lib
