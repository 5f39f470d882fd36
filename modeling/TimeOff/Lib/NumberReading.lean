import TimeOff.Lib.NumberString

/-! # Reading numbers back

The spelling of a number is digits, at most one point with digits on both sides, and an
exponent behind them; the reader takes it apart there.  So `stringToNumber` inverts the
spelling, and no two numbers have one spelling.
-/

set_option autoImplicit false

namespace TimeOff.Lib

/-! ## Digits -/

def AllDigits (chars : List Char) : Prop := ∀ char ∈ chars, char.isDigit = true

theorem padded_allDigits (width n : ℕ) : AllDigits (padded width n) := by
  induction width generalizing n with
  | zero => simp [padded, AllDigits]
  | succ width inductionHypothesis =>
    intro char mem
    rw [padded, List.mem_append, List.mem_singleton] at mem
    cases mem with
    | inl before => exact inductionHypothesis _ char before
    | inr last =>
      rw [last]
      exact (digitChar_isDigit (Nat.mod_lt n (by norm_num))).1

/-- Zeros behind the digits multiply. -/
theorem padded_append_zeros (width zeros n : ℕ) :
    padded width n ++ List.replicate zeros '0' = padded (width + zeros) (n * 10 ^ zeros) := by
  induction zeros with
  | zero => simp
  | succ zeros inductionHypothesis =>
    rw [List.replicate_succ', ← List.append_assoc, inductionHypothesis, ← Nat.add_assoc, padded,
      show n * 10 ^ (zeros + 1) = n * 10 ^ zeros * 10 by ring, Nat.mul_div_cancel _ (by norm_num),
      Nat.mul_mod_left]
    rfl

/-- Zeros before the digits do nothing. -/
theorem zeros_append_padded (zeros width n : ℕ) (small : n < 10 ^ width) :
    List.replicate zeros '0' ++ padded width n = padded (zeros + width) n := by
  induction width generalizing n with
  | zero =>
    obtain rfl : n = 0 := by simpa using small
    rw [padded, List.append_nil]
    induction zeros with
    | zero => rfl
    | succ zeros inductionHypothesis =>
      rw [List.replicate_succ', inductionHypothesis]
      rfl
  | succ width inductionHypothesis =>
    rw [padded, ← List.append_assoc, inductionHypothesis (n / 10) (by rw [pow_succ] at small; omega),
      ← Nat.add_assoc, padded]

theorem decimalDigits?_padded {width n : ℕ} (some_ : 1 ≤ width) (small : n < 10 ^ width) :
    decimalDigits? (padded width n) = some (n : ℤ) := by
  have nonempty : padded width n ≠ [] := by
    rw [← List.length_pos_iff, padded_length]
    exact some_
  rw [decimalDigits?, if_neg nonempty, digits?_padded small]

theorem toDigits_eq_padded (n : ℕ) : ∃ width, 1 ≤ width ∧ n < 10 ^ width ∧
    Nat.toDigits 10 n = padded width n := by
  induction n using Nat.strong_induction_on with
  | _ n inductionHypothesis =>
    -- both put the last digit behind the digits of the tenth part
    by_cases small : n < 10
    · refine ⟨1, le_refl _, by simpa using small, ?_⟩
      rw [Nat.toDigits_of_lt_base small, padded, padded, Nat.mod_eq_of_lt small]
      rfl
    · obtain ⟨width, some_, short, spelled⟩ := inductionHypothesis (n / 10) (by omega)
      refine ⟨width + 1, by omega, by rw [pow_succ]; omega, ?_⟩
      rw [Nat.toDigits_of_base_le (by norm_num) (by omega), spelled]
      rfl

theorem decimalDigits?_toDigits (n : ℕ) : decimalDigits? (Nat.toDigits 10 n) = some (n : ℤ) := by
  obtain ⟨width, some_, small, spelled⟩ := toDigits_eq_padded n
  rw [spelled, decimalDigits?_padded some_ small]

/-! ## The parts of a spelling -/

/-- Digits, perhaps a point with digits behind it, and perhaps an exponent. -/
structure DecimalParts where
  whole : List Char
  fraction : List Char
  exponent : List Char
  whole_some : whole ≠ []
  whole_digits : AllDigits whole
  fraction_digits : AllDigits fraction
  exponent_form : exponent = [] ∨ ∃ sign digits, exponent = 'e' :: sign :: digits ∧
    (sign = '+' ∨ sign = '-') ∧ AllDigits digits

namespace DecimalParts

def chars (parts : DecimalParts) : List Char :=
  parts.whole ++ (if parts.fraction = [] then [] else '.' :: parts.fraction) ++ parts.exponent

/-- The digits end where the exponent begins. -/
theorem span_exponent (parts : DecimalParts) {digits : List Char} (allDigits : AllDigits digits) :
    (digits ++ parts.exponent).takeWhile Char.isDigit = digits ∧
      (digits ++ parts.exponent).dropWhile Char.isDigit = parts.exponent := by
  rw [List.takeWhile_append_of_pos allDigits, List.dropWhile_append_of_pos allDigits]
  obtain none_ | ⟨sign, expDigits, some_, -, -⟩ := parts.exponent_form
  · simp [none_]
  · simp [some_]

/-- The reader takes a spelling apart where its parts meet. -/
theorem unsignedDecimal?_chars (parts : DecimalParts) : unsignedDecimal? parts.chars = (do
    let mantissa ← decimalDigits? (parts.whole ++ parts.fraction)
    let exponent ← exponentPart? parts.exponent
    some ((mantissa : ℚ) * 10 ^ (exponent - parts.fraction.length))) := by
  by_cases noFraction : parts.fraction = []
  · have spelled : parts.chars = parts.whole ++ parts.exponent := by
      simp [chars, noFraction]
    obtain ⟨taken, dropped⟩ := parts.span_exponent parts.whole_digits
    simp only [unsignedDecimal?, spelled, taken, dropped, noFraction]
    obtain none_ | ⟨sign, expDigits, some_, -, -⟩ := parts.exponent_form
    · rw [none_]
    · rw [some_]
      rfl
  · have spelled : parts.chars = parts.whole ++ '.' :: (parts.fraction ++ parts.exponent) := by
      simp [chars, noFraction]
    have taken : parts.chars.takeWhile Char.isDigit = parts.whole := by
      rw [spelled, List.takeWhile_append_of_pos parts.whole_digits]
      simp
    have dropped : parts.chars.dropWhile Char.isDigit = '.' :: (parts.fraction ++ parts.exponent) := by
      rw [spelled, List.dropWhile_append_of_pos parts.whole_digits]
      simp
    obtain ⟨fractionTaken, exponentLeft⟩ := parts.span_exponent parts.fraction_digits
    simp only [unsignedDecimal?, taken, dropped, fractionTaken, exponentLeft]

end DecimalParts

section Exponent

variable (negative : Prop) [Decidable negative] (n : ℕ)

theorem exponentPart?_toDigits :
    exponentPart? ('e' :: (if negative then '-' else '+') :: Nat.toDigits 10 n) =
      some (if negative then -(n : ℤ) else n) := by
  by_cases sign : negative
  · simp [exponentPart?, decimalDigits?_toDigits, sign]
  · simp [exponentPart?, decimalDigits?_toDigits, sign]

/-- A sign and digits behind an `e`. -/
theorem exponent_form :
    ∃ sign digits, 'e' :: (if negative then '-' else '+') :: Nat.toDigits 10 n = 'e' :: sign :: digits ∧
      (sign = '+' ∨ sign = '-') ∧ AllDigits digits := by
  obtain ⟨width, -, -, spelled⟩ := toDigits_eq_padded n
  refine ⟨_, _, rfl, ?_, ?_⟩
  · by_cases sign : negative
    · exact .inr (if_pos sign)
    · exact .inl (if_neg sign)
  · rw [spelled]
    exact padded_allDigits width n

end Exponent

theorem AllDigits.of_append {before after : List Char} (all : AllDigits (before ++ after)) :
    AllDigits before ∧ AllDigits after :=
  ⟨fun char mem => all char (List.mem_append_left _ mem),
    fun char mem => all char (List.mem_append_right _ mem)⟩

/-- The value of a literal from that of its digits and its exponent. -/
theorem DecimalParts.unsignedDecimal?_eq (parts : DecimalParts) {s k : ℕ} {n exponent : ℤ}
    (digits : decimalDigits? (parts.whole ++ parts.fraction) = some (s : ℤ))
    (read : exponentPart? parts.exponent = some exponent)
    (place : exponent - parts.fraction.length = n - k) :
    unsignedDecimal? parts.chars = some ((s : ℚ) * 10 ^ (n - k)) := by
  rw [parts.unsignedDecimal?_chars, digits, read]
  show some _ = some _
  rw [place, Int.cast_natCast]

section Notations

variable {s k : ℕ} {n : ℤ} (some_ : 1 ≤ k) (small : s < 10 ^ k)

/-- A spelling in parts that read as the digits at their place. -/
def ReadsAs (s k : ℕ) (n : ℤ) (chars : List Char) : Prop :=
  ∃ parts : DecimalParts, chars = parts.chars ∧
    unsignedDecimal? parts.chars = some ((s : ℚ) * 10 ^ (n - k))

include some_ small

/-- Zeros fill the places up to the point. -/
theorem reads_zerosBehind {zeros : ℕ} (behind : k + (zeros : ℤ) = n) :
    ReadsAs s k n (padded k s ++ List.replicate zeros '0') := by
  -- the zeros belong to the digits, and nothing is left behind the point
  have short : s * 10 ^ zeros < 10 ^ (k + zeros) := by
    rw [pow_add]
    exact Nat.mul_lt_mul_of_pos_right small (by positivity)
  have nonempty : padded (k + zeros) (s * 10 ^ zeros) ≠ [] := by
    rw [← List.length_pos_iff, padded_length]
    omega
  rw [padded_append_zeros]
  refine ⟨⟨padded (k + zeros) (s * 10 ^ zeros), [], [], nonempty, padded_allDigits _ _,
    by simp [AllDigits], .inl rfl⟩, by simp [DecimalParts.chars], ?_⟩
  rw [DecimalParts.unsignedDecimal?_chars, List.append_nil, decimalDigits?_padded (by omega) short]
  show some _ = some _
  rw [show n - k = (zeros : ℤ) by omega, zpow_natCast]
  push_cast
  simp

/-- The point is among the digits. -/
theorem reads_pointInside (inside : 0 < n) (fewer : n < k) :
    ReadsAs s k n ((padded k s).take n.toNat ++ '.' :: (padded k s).drop n.toNat) := by
  have length := padded_length k s
  have halves := List.take_append_drop n.toNat (padded k s)
  have allHalves : AllDigits ((padded k s).take n.toNat ++ (padded k s).drop n.toNat) := by
    rw [halves]
    exact padded_allDigits k s
  have whole : (padded k s).take n.toNat ≠ [] := by
    rw [← List.length_pos_iff, List.length_take, length]
    omega
  have fraction : (padded k s).drop n.toNat ≠ [] := by
    rw [← List.length_pos_iff, List.length_drop, length]
    omega
  refine ⟨⟨(padded k s).take n.toNat, (padded k s).drop n.toNat, [], whole, allHalves.of_append.1,
    allHalves.of_append.2, .inl rfl⟩, by simp [DecimalParts.chars, fraction], ?_⟩
  refine DecimalParts.unsignedDecimal?_eq _ (by rw [halves, decimalDigits?_padded some_ small]) rfl ?_
  rw [List.length_drop, length]
  omega

/-- The point is before the digits. -/
theorem reads_zerosBefore (before : n ≤ 0) :
    ReadsAs s k n ('0' :: '.' :: List.replicate (-n).toNat '0' ++ padded k s) := by
  have length := padded_length k s
  -- with the zeros before it the number is read as one of more digits
  have zeros : ['0'] ++ (List.replicate (-n).toNat '0' ++ padded k s) =
      padded ((-n).toNat + 1 + k) s := by
    rw [← zeros_append_padded ((-n).toNat + 1) k s small]
    rfl
  have allZeros : AllDigits (['0'] ++ (List.replicate (-n).toNat '0' ++ padded k s)) := by
    rw [zeros]
    exact padded_allDigits _ _
  have fraction : List.replicate (-n).toNat '0' ++ padded k s ≠ [] := by
    rw [← List.length_pos_iff, List.length_append, length]
    omega
  have shorter : s < 10 ^ ((-n).toNat + 1 + k) :=
    lt_of_lt_of_le small (Nat.pow_le_pow_right (by norm_num) (by omega))
  refine ⟨⟨['0'], List.replicate (-n).toNat '0' ++ padded k s, [], by simp, allZeros.of_append.1,
    allZeros.of_append.2, .inl rfl⟩, ?_, ?_⟩
  · rw [DecimalParts.chars, if_neg fraction]
    simp
  · have value := decimalDigits?_padded (by omega) shorter
    refine DecimalParts.unsignedDecimal?_eq _ (by rw [zeros, value]) rfl ?_
    rw [List.length_append, List.length_replicate, length]
    push_cast
    omega

/-- One digit is before the point, and the exponent counts from it. -/
theorem reads_exponent (outside : n ≠ 0) {first : Char} {rest : List Char}
    (digits : padded k s = first :: rest) :
    let exponent := 'e' :: (if n < 0 then '-' else '+') :: Nat.toDigits 10 (n - 1).natAbs
    ReadsAs s k n ([first] ++ (if rest = [] then [] else '.' :: rest) ++ exponent) := by
  intro exponent
  have length := padded_length k s
  have allDigits := padded_allDigits k s
  have value := decimalDigits?_padded some_ small
  rw [digits] at length allDigits value
  have allParts : AllDigits ([first] ++ rest) := allDigits
  have read : exponentPart? exponent = some (n - 1) := by
    rw [exponentPart?_toDigits, Option.some.injEq]
    split <;> omega
  refine ⟨⟨[first], rest, exponent, by simp, allParts.of_append.1, allParts.of_append.2,
    .inr (exponent_form _ _)⟩, rfl, ?_⟩
  refine DecimalParts.unsignedDecimal?_eq _ value read ?_
  rw [List.length_cons] at length
  show n - 1 - (rest.length : ℤ) = n - k
  omega

/-- What is spelled has the parts of a literal, and they denote the digits at their place. -/
theorem spellDecimal_readsAs (n : ℤ) : ReadsAs s k n (spellDecimal (padded k s) n) := by
  have length := padded_length k s
  simp only [spellDecimal]
  by_cases fixed : -5 ≤ n ∧ n ≤ 21
  · rw [if_pos fixed, length]
    by_cases wholeNumber : (k : ℤ) ≤ n
    · rw [if_pos wholeNumber]
      exact reads_zerosBehind some_ small (by omega)
    · rw [if_neg wholeNumber]
      by_cases inside : 0 < n
      · rw [if_pos inside]
        exact reads_pointInside some_ small inside (by omega)
      · rw [if_neg inside]
        exact reads_zerosBefore some_ small (by omega)
  · rw [if_neg fixed]
    cases digits : padded k s with
    | nil =>
      rw [digits, List.length_nil] at length
      omega
    | cons first rest =>
      have parts := reads_exponent some_ small (show n ≠ 0 by omega) digits
      cases rest with
      | nil => exact parts
      | cons second rest => simpa using parts

end Notations

/-! ## Reading a spelling -/

/-- The characters of a decimal literal. -/
def PlainChars (chars : List Char) : Prop :=
  ∀ char ∈ chars, char.isDigit = true ∨ char = '.' ∨ char = 'e' ∨ char = '+' ∨ char = '-'

theorem DecimalParts.plainChars (parts : DecimalParts) : PlainChars parts.chars := by
  intro char mem
  rw [chars, List.mem_append, List.mem_append] at mem
  obtain (whole | fraction) | exponent := mem
  · exact .inl (parts.whole_digits char whole)
  · split at fraction
    next => cases fraction
    next =>
      cases fraction with
      | head => exact .inr (.inl rfl)
      | tail _ digit => exact .inl (parts.fraction_digits char digit)
  · obtain none_ | ⟨sign, digits, some_, plusMinus, allDigits⟩ := parts.exponent_form
    · rw [none_] at exponent
      cases exponent
    · rw [some_, List.mem_cons, List.mem_cons] at exponent
      obtain rfl | rfl | digit := exponent
      · exact .inr (.inr (.inl rfl))
      · exact .inr (.inr (.inr plusMinus))
      · exact .inl (allDigits char digit)

/-- A plain character is no white space and marks no base. -/
theorem plain_not {char : Char}
    (plain : char.isDigit = true ∨ char = '.' ∨ char = 'e' ∨ char = '+' ∨ char = '-') :
    isSpace char = false ∧ baseOf? char = none := by
  obtain digit | rfl | rfl | rfl | rfl := plain
  · obtain ⟨n, small, rfl⟩ := isDigit_eq_digitChar digit
    interval_cases n <;> decide
  all_goals decide

theorem trimmed_of_plain {chars : List Char} (plain : PlainChars chars) : trimmed chars = chars := by
  have kept : ∀ {chars : List Char}, PlainChars chars → chars.dropWhile isSpace = chars := by
    intro chars plain
    cases chars with
    | nil => rfl
    | cons first rest => simp [(plain_not (plain first (List.mem_cons_self ..))).1]
  -- white space is taken off both ends
  have reversed : PlainChars chars.reverse := fun char mem => plain char (List.mem_reverse.mp mem)
  rw [trimmed, trimmedOf, kept plain, kept reversed, List.reverse_reverse]

/-- What begins with a digit and is plain is read without a sign or a base. -/
theorem numericLiteral_chars (parts : DecimalParts) :
    numericLiteral parts.chars = unsignedNumber parts.chars := by
  have plain := parts.plainChars
  obtain ⟨first, wholeRest, whole⟩ := List.exists_cons_of_ne_nil parts.whole_some
  have digit : first.isDigit = true := by
    apply parts.whole_digits
    rw [whole]
    exact List.mem_cons_self ..
  have spelled : parts.chars = first :: (wholeRest ++
      (if parts.fraction = [] then [] else '.' :: parts.fraction) ++ parts.exponent) := by
    rw [DecimalParts.chars, whole]
    rfl
  generalize wholeRest ++ _ ++ parts.exponent = rest at spelled
  rw [spelled] at plain ⊢
  -- of the ways a literal can begin, a digit rules out the signs, and a plain second character the bases
  simp only [numericLiteral]
  split
  next => contradiction
  next after chars =>
    cases chars
    exact absurd digit (by decide)
  next after chars =>
    cases chars
    exact absurd digit (by decide)
  next mark after chars =>
    cases chars
    rw [(plain_not (plain mark (by simp))).2]
  next => rfl

/-- No infinity begins with a digit. -/
theorem unsignedNumber_chars (parts : DecimalParts) {value : ℚ}
    (read : unsignedDecimal? parts.chars = some value) : unsignedNumber parts.chars = .ofRat value := by
  have finite : parts.chars ≠ "Infinity".toList := by
    intro infinity
    have unread : unsignedDecimal? "Infinity".toList = none := by decide
    rw [infinity, unread] at read
    cases read
  rw [unsignedNumber, if_neg finite, read]

/-- A positive number is spelled in parts that read as it. -/
theorem decimal_parts {x : Double} (positive : 0 < x.value) : ∃ parts : DecimalParts,
    spellDecimal (decimal x.value).1 (decimal x.value).2 = parts.chars ∧
      unsignedNumber parts.chars = .finite x := by
  obtain ⟨s, k, n, spelled, some_, small, rounds⟩ := decimal_spec x.onGrid positive
  obtain ⟨parts, chars, read⟩ := spellDecimal_readsAs some_ small n
  rw [spelled]
  refine ⟨parts, chars, ?_⟩
  rw [unsignedNumber_chars parts read, Number.ofRat, dif_pos (by rw [rounds]; exact x.bounded)]
  congr 1
  exact Double.ext rounds

/-- A spelling is that of a literal, behind a minus for a negative number. -/
theorem spelling_parts (x : Double) : ∃ parts : DecimalParts,
    x.spelling = parts.chars ∧ unsignedNumber parts.chars = .finite x ∨
    x.spelling = '-' :: parts.chars ∧ unsignedNumber parts.chars = .finite x.neg := by
  simp only [Double.spelling]
  by_cases zero : x.value = 0
  · rw [if_pos zero]
    obtain ⟨parts, chars, read⟩ := spellDecimal_readsAs (le_refl 1) (show 0 < 10 ^ 1 by norm_num) 1
    refine ⟨parts, .inl ⟨?_, ?_⟩⟩
    · rw [← chars]
      rfl
    · rw [unsignedNumber_chars parts read, Nat.cast_zero, zero_mul, ← zero, Number.ofRat_value]
  · rw [if_neg zero]
    by_cases negative : x.value < 0
    · rw [if_pos negative]
      obtain ⟨parts, chars, read⟩ := decimal_parts (x := x.neg) (neg_pos.mpr negative)
      exact ⟨parts, .inr ⟨congrArg _ chars, read⟩⟩
    · rw [if_neg negative]
      have positive := lt_of_le_of_ne (not_lt.mp negative) (Ne.symm zero)
      obtain ⟨parts, chars, read⟩ := decimal_parts positive
      exact ⟨parts, .inl ⟨chars, read⟩⟩

/-- `Number(x.toString())` is `x`. -/
theorem stringToNumber_spelling (x : Double) :
    stringToNumber (String.ofList x.spelling) = .finite x := by
  rw [stringToNumber, String.toList_ofList]
  obtain ⟨parts, ⟨spelled, read⟩ | ⟨spelled, read⟩⟩ := spelling_parts x
  · rw [spelled, trimmed_of_plain parts.plainChars, numericLiteral_chars, read]
  · have plain : PlainChars ('-' :: parts.chars) := by
      intro char mem
      cases mem with
      | head => simp
      | tail _ mem => exact parts.plainChars char mem
    rw [spelled, trimmed_of_plain plain]
    show (unsignedNumber parts.chars).neg = _
    rw [read]
    exact congrArg Number.finite x.neg_neg

example : (stringToNumber " 0.10e-6").toString = "1e-7" := by decide +kernel

theorem spelling_injective {x y : Double} (same : x.spelling = y.spelling) : x = y := by
  have read := stringToNumber_spelling x
  rw [same, stringToNumber_spelling] at read
  exact (Number.finite.inj read).symm

/-! ## Points in a spelling -/

/-- Behind every point stands a digit. -/
def PointsFollowed : List Char → Prop
  | [] => True
  | char :: rest => (char = '.' → ∃ digit ∈ rest.head?, digit.isDigit = true) ∧ PointsFollowed rest

theorem pointsFollowed_append {before after : List Char} (none_ : '.' ∉ before) :
    PointsFollowed (before ++ after) ↔ PointsFollowed after := by
  induction before with
  | nil => rfl
  | cons char before inductionHypothesis =>
    rw [List.mem_cons, not_or] at none_
    rw [List.cons_append, PointsFollowed, inductionHypothesis none_.2]
    constructor
    · exact And.right
    · intro followed
      exact ⟨fun point => absurd point.symm none_.1, followed⟩

theorem AllDigits.no_point {chars : List Char} (all : AllDigits chars) : '.' ∉ chars := by
  intro mem
  exact absurd (all '.' mem) (by decide)

theorem DecimalParts.pointsFollowed (parts : DecimalParts) : PointsFollowed parts.chars := by
  have exponent : PointsFollowed parts.exponent := by
    obtain none_ | ⟨sign, digits, some_, plusMinus, allDigits⟩ := parts.exponent_form
    · rw [none_]
      trivial
    · have noPoint : '.' ∉ parts.exponent := by
        rw [some_, List.mem_cons, List.mem_cons]
        rintro (mark | isSign | digit)
        · cases mark
        · rw [← isSign] at plusMinus
          cases plusMinus <;> contradiction
        · exact allDigits.no_point digit
      rw [← List.append_nil parts.exponent, pointsFollowed_append noPoint]
      trivial
  -- the one point there can be stands before a fraction that is not empty
  rw [chars, List.append_assoc, pointsFollowed_append parts.whole_digits.no_point]
  split
  next => exact exponent
  next some_ =>
    rw [List.cons_append, PointsFollowed, pointsFollowed_append parts.fraction_digits.no_point]
    obtain ⟨digit, rest, fraction⟩ := List.exists_cons_of_ne_nil some_
    refine ⟨fun _ => ⟨digit, ?_, ?_⟩, exponent⟩
    · rw [fraction]
      rfl
    · apply parts.fraction_digits
      rw [fraction]
      exact List.mem_cons_self ..

theorem spelling_pointsFollowed (x : Double) : PointsFollowed x.spelling := by
  obtain ⟨parts, ⟨spelled, -⟩ | ⟨spelled, -⟩⟩ := spelling_parts x
  · rw [spelled]
    exact parts.pointsFollowed
  · rw [spelled]
    exact ⟨fun point => absurd point (by decide), parts.pointsFollowed⟩

/-- A digit behind a point is none that begins a body behind the point. -/
theorem no_digit_behind_point {right body : List Char} (followed : PointsFollowed ('.' :: right))
    (noDigit : ∀ char ∈ (right ++ '.' :: body).head?, char.isDigit = false) : False := by
  obtain ⟨digit, first, isDigit⟩ := followed.1 rfl
  have begins : digit ∈ (right ++ '.' :: body).head? := by
    cases right with
    | nil => cases first
    | cons second right => exact first
  rw [noDigit digit begins] at isDigit
  cases isDigit

/-- A point between what follows points with digits and what begins with none is found again. -/
theorem joined_unique {left right body body' : List Char} (leftFollowed : PointsFollowed left)
    (rightFollowed : PointsFollowed right) (noDigit : ∀ char ∈ body.head?, char.isDigit = false)
    (noDigit' : ∀ char ∈ body'.head?, char.isDigit = false)
    (same : left ++ '.' :: body = right ++ '.' :: body') : left = right ∧ body = body' := by
  -- by induction on both texts: only where both end can the joining points meet
  induction left generalizing right with
  | nil =>
    cases right with
    | nil =>
      simp only [List.nil_append, List.cons.injEq, true_and] at same
      exact ⟨rfl, same⟩
    | cons char right =>
      simp only [List.nil_append, List.cons_append, List.cons.injEq] at same
      obtain ⟨rfl, rfl⟩ := same
      exact absurd noDigit (no_digit_behind_point rightFollowed)
  | cons char left inductionHypothesis =>
    cases right with
    | nil =>
      simp only [List.nil_append, List.cons_append, List.cons.injEq] at same
      obtain ⟨rfl, rfl⟩ := same
      exact absurd noDigit' (no_digit_behind_point leftFollowed)
    | cons char' right =>
      simp only [List.cons_append, List.cons.injEq] at same
      obtain ⟨lefts, bodies⟩ := inductionHypothesis leftFollowed.2 rightFollowed.2 same.2
      exact ⟨by rw [same.1, lefts], bodies⟩

end TimeOff.Lib
