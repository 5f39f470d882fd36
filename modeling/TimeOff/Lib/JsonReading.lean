import TimeOff.Lib.Json
import TimeOff.Lib.NumberReading

/-! # Reading a JSON text

What `stringify` spells, `parse` reads back: the text of a value that has no number
beyond the finite ones and no name twice in an object.
-/

set_option autoImplicit false

namespace TimeOff.Lib

open Json

/-! ## The first digit -/

theorem le_candidates {x : ℚ} (positive : 0 < x) {k s : ℕ} (some_ : 1 ≤ k)
    (candidate : s ∈ candidates x k) : 10 ^ (k - 1) ≤ s := by
  have unit : (0 : ℚ) < 10 ^ (decimalPoint x - k) := by positivity
  have large : 10 ^ (k - 1) ≤ ⌊x / 10 ^ (decimalPoint x - k)⌋₊ := by
    rw [Nat.le_floor_iff (by positivity), le_div_iff₀ unit]
    push_cast
    rw [← zpow_natCast, ← zpow_add₀ (by norm_num), show ((k - 1 : ℕ) : ℤ) + (decimalPoint x - k) =
      decimalPoint x - 1 by omega]
    exact (decimalPoint_spec positive).1
  -- the floor has `k` digits, and a candidate is the floor or the number after it
  simp only [candidates] at candidate
  split at candidate
  · simp only [List.mem_cons, List.not_mem_nil, or_false] at candidate
    omega
  · simp only [List.mem_cons, List.not_mem_nil, or_false] at candidate
    omega

theorem le_of_shortest? {x : ℚ} (positive : 0 < x) {s k : ℕ} (found : shortest? x = some (s, k)) :
    1 ≤ k ∧ 10 ^ (k - 1) ≤ s := by
  obtain ⟨k', mem, chosen⟩ := List.exists_of_findSome?_eq_some found
  obtain ⟨s', foundDigits, pair⟩ := Option.map_eq_some_iff.mp chosen
  cases pair
  have some_ := (List.mem_range'_1.mp mem).1
  exact ⟨some_, le_candidates positive some_ (List.mem_of_find?_eq_some foundDigits)⟩

/-- The first digit of `k` digits that are no fewer. -/
theorem padded_head {k s : ℕ} (some_ : 1 ≤ k) (full : 10 ^ (k - 1) ≤ s) (small : s < 10 ^ k) :
    (padded k s).head? ≠ some '0' := by
  induction k generalizing s with
  | zero => omega
  | succ k inductionHypothesis =>
    cases k with
    | zero =>
      simp only [zero_add, Nat.sub_self, pow_zero, pow_one] at full small
      interval_cases s <;> decide
    | succ k =>
      -- without its last digit the number has one digit fewer, and the same first one
      have tens : 10 ^ k ≤ s / 10 := by
        rw [Nat.le_div_iff_mul_le (by norm_num), ← pow_succ]
        exact full
      have fewer : s / 10 < 10 ^ (k + 1) := by
        rw [Nat.div_lt_iff_lt_mul (by norm_num), ← pow_succ]
        exact small
      have front := inductionHypothesis (by omega) tens fewer
      rw [padded, List.head?_append]
      cases spelled : (padded (k + 1) (s / 10)).head? with
      | none =>
        have length := padded_length (k + 1) (s / 10)
        rw [List.head?_eq_none_iff.mp spelled] at length
        cases length
      | some first =>
        rw [spelled] at front
        exact front

/-- The digits of a positive number do not begin with a zero. -/
theorem decimal_head {x : ℚ} (onGrid : OnGrid x) (positive : 0 < x) :
    ∃ first rest, (decimal x).1 = first :: rest ∧ first ≠ '0' ∧ AllDigits (first :: rest) := by
  obtain ⟨s, k, found, -, small, -⟩ := shortest?_spec onGrid positive
  obtain ⟨some_, full⟩ := le_of_shortest? positive found
  -- a candidate that was carried to `10 ^ k` is spelled as the `10 ^ (k - 1)` it has the digits of
  have digits : ∃ s', (decimal x).1 = padded k s' ∧ 10 ^ (k - 1) ≤ s' ∧ s' < 10 ^ k := by
    simp only [decimal, found]
    by_cases carried : s = 10 ^ k
    · rw [if_pos carried]
      exact ⟨_, rfl, le_refl _, Nat.pow_lt_pow_right (by norm_num) (by omega)⟩
    · rw [if_neg carried]
      exact ⟨s, rfl, full, by omega⟩
  obtain ⟨s', spelled, full, small⟩ := digits
  have head := padded_head some_ full small
  have allDigits := padded_allDigits k s'
  rw [spelled]
  cases chars : padded k s' with
  | nil =>
    have length := padded_length k s'
    rw [chars, List.length_nil] at length
    omega
  | cons first rest =>
    rw [chars] at head allDigits
    exact ⟨first, rest, rfl, fun zero => head (congrArg some zero), allDigits⟩

/-- A zero comes first only where it is the whole part. -/
def LeadsPlainly (chars : List Char) : Prop :=
  (chars.takeWhile Char.isDigit).head? = some '0' → chars.takeWhile Char.isDigit = ['0']

theorem leadsPlainly_cons {first : Char} (rest : List Char) (nonzero : first ≠ '0') :
    LeadsPlainly (first :: rest) := by
  intro zero
  by_cases digit : first.isDigit = true
  · rw [List.takeWhile_cons, if_pos digit, List.head?_cons] at zero
    exact absurd (Option.some.inj zero) nonzero
  · rw [List.takeWhile_cons, if_neg digit] at zero
    cases zero

theorem spellDecimal_leadsPlainly {first : Char} {rest : List Char} (nonzero : first ≠ '0') (n : ℤ) :
    LeadsPlainly (spellDecimal (first :: rest) n) := by
  simp only [spellDecimal]
  split
  · split
    · exact leadsPlainly_cons _ nonzero
    · split
      next inside =>
        -- the point stands behind the first digit or later
        obtain ⟨before, same⟩ : ∃ before, n.toNat = before + 1 := ⟨n.toNat - 1, by omega⟩
        rw [same, List.take_succ_cons]
        exact leadsPlainly_cons _ nonzero
      -- `0.` comes before the digits, and the zero is the whole part
      · intro _
        simp
  · cases rest with
    | nil => exact leadsPlainly_cons _ nonzero
    | cons second rest => exact leadsPlainly_cons _ nonzero

/-- The magnitude of a number is a literal that leads plainly and reads as it. -/
theorem decimal_leadsPlainly {x : Double} (positive : 0 < x.value) : ∃ parts : DecimalParts,
    spellDecimal (decimal x.value).1 (decimal x.value).2 = parts.chars ∧ LeadsPlainly parts.chars ∧
      unsignedNumber parts.chars = .finite x := by
  obtain ⟨parts, spelled, read⟩ := decimal_parts positive
  obtain ⟨first, rest, digits, nonzero, -⟩ := decimal_head x.onGrid positive
  refine ⟨parts, spelled, ?_, read⟩
  rw [← spelled, digits]
  exact spellDecimal_leadsPlainly nonzero _

theorem spelling_leadsPlainly (x : Double) : ∃ parts : DecimalParts, LeadsPlainly parts.chars ∧
    (x.spelling = parts.chars ∧ unsignedNumber parts.chars = .finite x ∨
      x.spelling = '-' :: parts.chars ∧ unsignedNumber parts.chars = .finite x.neg) := by
  by_cases positive : 0 < x.value
  · obtain ⟨parts, spelled, leads, read⟩ := decimal_leadsPlainly positive
    refine ⟨parts, leads, .inl ⟨?_, read⟩⟩
    rw [Double.spelling, if_neg positive.ne', if_neg positive.not_gt]
    exact spelled
  · by_cases negative : x.value < 0
    · obtain ⟨parts, spelled, leads, read⟩ := decimal_leadsPlainly (x := x.neg) (neg_pos.mpr negative)
      refine ⟨parts, leads, .inr ⟨?_, read⟩⟩
      rw [Double.spelling, if_neg negative.ne, if_pos negative]
      exact congrArg _ spelled
    · have zero : x.spelling = ['0'] := if_pos (le_antisymm (not_lt.mp positive) (not_lt.mp negative))
      obtain ⟨parts, spelled⟩ := spelling_parts x
      rw [zero] at spelled
      refine ⟨parts, ?_, by rw [zero]; exact spelled⟩
      obtain ⟨same, -⟩ | ⟨signed, -⟩ := spelled
      · rw [← same]
        intro _
        rfl
      · exact absurd (List.cons.inj signed).1 (by decide)

/-! ## Numbers -/

/-- The text behind a number begins with nothing that could belong to it. -/
def Ends (rest : List Char) : Prop := ∀ char ∈ rest.head?, isNumberChar char = false

theorem DecimalParts.strictDecimal?_chars (parts : DecimalParts) (leads : LeadsPlainly parts.chars) :
    strictDecimal? parts.chars = unsignedDecimal? parts.chars := by
  have spelled : parts.chars.takeWhile Char.isDigit = parts.whole ∧
      parts.chars.dropWhile Char.isDigit =
        (if parts.fraction = [] then [] else '.' :: parts.fraction) ++ parts.exponent := by
    by_cases noFraction : parts.fraction = []
    · simpa [DecimalParts.chars, noFraction] using parts.span_exponent parts.whole_digits
    · rw [DecimalParts.chars, if_neg noFraction, List.append_assoc,
        List.takeWhile_append_of_pos parts.whole_digits, List.dropWhile_append_of_pos parts.whole_digits]
      simp
  rw [LeadsPlainly, spelled.1] at leads
  -- none of the three checks of the strict reader finds anything
  have noZero : ¬ (parts.whole.head? = some '0' ∧ parts.whole ≠ ['0']) := fun zero => zero.2 (leads zero.1)
  simp only [strictDecimal?, spelled.1, spelled.2]
  rw [if_neg]
  simp only [parts.whole_some, noZero, false_or]
  by_cases noFraction : parts.fraction = []
  · obtain none_ | ⟨sign, digits, some_, -, -⟩ := parts.exponent_form
    · simp [noFraction, none_]
    · simp [noFraction, some_]
  · simp [noFraction, (parts.span_exponent parts.fraction_digits).1]

theorem isNumberChar_of_plain {char : Char}
    (plain : char.isDigit = true ∨ char = '.' ∨ char = 'e' ∨ char = '+' ∨ char = '-') :
    isNumberChar char = true := by
  obtain digit | rfl | rfl | rfl | rfl := plain
  · simp [isNumberChar, digit]
  all_goals decide

theorem span_number {chars rest : List Char} (number : ∀ char ∈ chars, isNumberChar char = true)
    (ends : Ends rest) : (chars ++ rest).takeWhile isNumberChar = chars ∧
      (chars ++ rest).dropWhile isNumberChar = rest := by
  rw [List.takeWhile_append_of_pos number, List.dropWhile_append_of_pos number]
  cases rest with
  | nil => simp
  | cons first rest =>
    have stops := ends first rfl
    simp [stops]

theorem unsignedDecimal?_of_finite {chars : List Char} {x : Double}
    (read : unsignedNumber chars = .finite x) :
    ∃ value, unsignedDecimal? chars = some value ∧ Number.ofRat value = .finite x := by
  simp only [unsignedNumber] at read
  split at read
  · cases read
  · split at read
    next value decimal => exact ⟨value, decimal, read⟩
    next => cases read

/-- The spelling of a number is read up to its end. -/
theorem parseNumber_spelling (x : Double) {rest : List Char} (ends : Ends rest) :
    parseNumber (x.spelling ++ rest) = some (.finite x, rest) := by
  obtain ⟨parts, leads, ⟨spelled, read⟩ | ⟨spelled, read⟩⟩ := spelling_leadsPlainly x
  · obtain ⟨value, decimal, rounds⟩ := unsignedDecimal?_of_finite read
    obtain ⟨taken, dropped⟩ :=
      span_number (fun char mem => isNumberChar_of_plain (parts.plainChars char mem)) ends
    rw [spelled, parseNumber, taken, dropped]
    -- the spelling begins with a digit, so the reader takes off no sign
    obtain ⟨first, wholeRest, whole⟩ := List.exists_cons_of_ne_nil parts.whole_some
    have digit : first.isDigit = true :=
      parts.whole_digits first (by rw [whole]; exact List.mem_cons_self ..)
    have strict := parts.strictDecimal?_chars leads
    split
    next magnitude signed =>
      rw [DecimalParts.chars, whole] at signed
      cases signed
      exact absurd digit (by decide)
    next => rw [strict, decimal, Option.map_some, rounds]
  · obtain ⟨value, decimal, rounds⟩ := unsignedDecimal?_of_finite read
    have number : ∀ char ∈ '-' :: parts.chars, isNumberChar char = true := by
      intro char mem
      cases mem with
      | head => decide
      | tail _ mem => exact isNumberChar_of_plain (parts.plainChars char mem)
    obtain ⟨taken, dropped⟩ := span_number number ends
    rw [spelled, parseNumber, taken, dropped]
    show (strictDecimal? parts.chars).map _ = _
    rw [parts.strictDecimal?_chars leads, decimal, Option.map_some, rounds]
    exact congrArg (fun y => some (Number.finite y, rest)) x.neg_neg

/-! ## Strings -/

/-- The four digits of a control character. -/
theorem escapedChar?_control {char : Char} (control : char.toNat < 32) (rest : List Char) :
    escapedChar? ('u' :: '0' :: '0' :: Nat.digitChar (char.toNat / 16) ::
      Nat.digitChar (char.toNat % 16) :: rest) = some (char, rest) := by
  have unit : ∀ n < 32, integerIn? 16 ['0', '0', Nat.digitChar (n / 16), Nat.digitChar (n % 16)] = some n := by
    decide
  have small : char.toNat < 0xd800 ∨ 0xe000 ≤ char.toNat := .inl (by omega)
  simp only [escapedChar?, codeUnit?, unit _ control, Option.map_some, Option.bind_eq_bind,
    Option.bind_some, if_pos small, Char.ofNat_toNat]

/-- One character is read back, however it was escaped. -/
theorem parseString_escaped (fuel : ℕ) (char : Char) (rest : List Char) :
    parseString (fuel + 1) (escaped char ++ rest) =
      (parseString fuel rest).bind fun read => some (char :: read.1, read.2) := by
  cases short : shortEscape? char with
  | some letter =>
    -- one of the characters that have a letter of their own
    obtain ⟨escape, found, rfl⟩ := Option.map_eq_some_iff.mp short
    have mem := List.mem_of_find?_eq_some found
    have stands : escape.2 = char := by simpa using List.find?_some found
    subst stands
    simp only [escaped, short]
    simp only [shortEscapes, List.mem_cons, List.not_mem_nil, or_false] at mem
    obtain rfl | rfl | rfl | rfl | rfl | rfl | rfl := mem
    all_goals rfl
  | none =>
    simp only [escaped, short]
    split
    next control =>
      have read := escapedChar?_control control rest
      show ((escapedChar? ('u' :: '0' :: '0' :: _ :: _ :: rest)).bind fun escape => _) = _
      rw [read]
      rfl
    next printable =>
      -- the quote and the backslash have letters of their own, so this is neither
      have plain : char ≠ '"' ∧ char ≠ '\\' := by
        constructor
        · rintro rfl
          exact absurd short (by decide)
        · rintro rfl
          exact absurd short (by decide)
      simp only [List.cons_append, List.nil_append, parseString, if_neg plain.1, if_neg plain.2,
        if_neg printable]
      rfl

theorem escaped_length (char : Char) : 1 ≤ (escaped char).length := by
  unfold escaped
  split
  · simp
  · split <;> simp

theorem parseString_quoted (chars rest : List Char) {fuel : ℕ}
    (enough : (chars.flatMap escaped).length < fuel) :
    parseString fuel (chars.flatMap escaped ++ '"' :: rest) = some (chars, rest) := by
  induction chars generalizing fuel with
  | nil =>
    cases fuel with
    | zero => cases enough
    | succ fuel => rfl
  | cons char chars inductionHypothesis =>
    have one := escaped_length char
    rw [List.flatMap_cons, List.length_append] at enough
    cases fuel with
    | zero => cases enough
    | succ fuel =>
      rw [List.flatMap_cons, List.append_assoc, parseString_escaped, inductionHypothesis (by omega)]
      rfl

/-! ## Values -/

namespace Json

mutual

/-- The values that a text keeps: numbers are finite, and no name is in an object twice. -/
def Plain : Json → Prop
  | null | boolean _ | string _ => True
  | number value => ∃ x, value = .finite x
  | array elements => PlainElements elements
  | object members => (members.map Prod.fst).Nodup ∧ PlainMembers members

def PlainElements : List Json → Prop
  | [] => True
  | element :: rest => element.Plain ∧ PlainElements rest

def PlainMembers : List (String × Json) → Prop
  | [] => True
  | (_, value) :: rest => value.Plain ∧ PlainMembers rest

end

/-- Names that are set for the first time come one after the other. -/
theorem foldl_setMember (members earlier : List (String × Json))
    (distinct : ((earlier ++ members).map Prod.fst).Nodup) :
    members.foldl (fun members member => setMember members member.1 member.2) earlier = earlier ++ members := by
  induction members generalizing earlier with
  | nil => simp
  | cons member rest inductionHypothesis =>
    have fresh : ∀ other ∈ earlier, other.1 ≠ member.1 := by
      intro other otherIn same
      rw [List.map_append, List.map_cons, List.nodup_append] at distinct
      exact distinct.2.2 other.1 (List.mem_map_of_mem otherIn) member.1 List.mem_cons_self same
    -- a new name goes to the end
    have set : setMember earlier member.1 member.2 = earlier ++ [member] := by
      rw [setMember, if_neg]
      intro taken
      obtain ⟨other, otherIn, same⟩ := List.any_eq_true.mp taken
      exact fresh other otherIn (of_decide_eq_true same)
    rw [List.foldl_cons, set, inductionHypothesis _ (by simpa using distinct)]
    simp

theorem ofMembers_of_nodup {members : List (String × Json)} (distinct : (members.map Prod.fst).Nodup) :
    ofMembers members = .object members := by
  rw [ofMembers, foldl_setMember members [] distinct, List.nil_append]

/-- A number is spelled from a digit or a sign on. -/
theorem spelling_first (x : Double) : ∃ first rest, x.spelling = first :: rest ∧
    (first.isDigit = true ∨ first = '-') := by
  obtain ⟨parts, -, ⟨spelled, -⟩ | ⟨spelled, -⟩⟩ := spelling_leadsPlainly x
  · obtain ⟨first, wholeRest, whole⟩ := List.exists_cons_of_ne_nil parts.whole_some
    have digit : first.isDigit = true :=
      parts.whole_digits first (by rw [whole]; exact List.mem_cons_self ..)
    refine ⟨first, wholeRest ++ (if parts.fraction = [] then [] else '.' :: parts.fraction) ++
      parts.exponent, ?_, .inl digit⟩
    rw [spelled, DecimalParts.chars, whole]
    rfl
  · exact ⟨'-', _, spelled, .inr rfl⟩

/-- Neither a blank nor the beginning of a value of another kind. -/
theorem number_first {first : Char} (begins : first.isDigit = true ∨ first = '-') :
    isBlank first = false ∧ first ∉ ['n', 't', 'f', '"', '[', '{', ']'] := by
  obtain digit | rfl := begins
  · obtain ⟨n, small, rfl⟩ := isDigit_eq_digitChar digit
    interval_cases n <;> decide
  · decide

theorem spell_first {value : Json} (plain : value.Plain) :
    ∃ first rest, value.spell = first :: rest ∧ isBlank first = false ∧ first ≠ ']' := by
  cases value with
  | number value =>
    obtain ⟨x, rfl⟩ := plain
    obtain ⟨first, rest, spelled, begins⟩ := spelling_first x
    obtain ⟨solid, other⟩ := number_first begins
    exact ⟨first, rest, spelled, solid, fun same => other (by simp [same])⟩
  | null => exact ⟨_, _, rfl, by decide, by decide⟩
  | boolean value => cases value <;> exact ⟨_, _, rfl, by decide, by decide⟩
  | string value => exact ⟨_, _, rfl, by decide, by decide⟩
  | array elements => cases elements <;> exact ⟨_, _, rfl, by decide, by decide⟩
  | object members => cases members <;> exact ⟨_, _, rfl, by decide, by decide⟩

theorem skipBlanks_cons {first : Char} (solid : isBlank first = false) (rest : List Char) :
    skipBlanks (first :: rest) = first :: rest := by
  rw [skipBlanks, List.dropWhile_cons, if_neg (by simp [solid])]

theorem parseValue_number (x : Double) {fuel : ℕ} {rest : List Char} (ends : Ends rest) :
    parseValue (fuel + 1) (x.spelling ++ rest) = some (.number (.finite x), rest) := by
  have parsed := parseNumber_spelling x ends
  obtain ⟨first, others, spelled, begins⟩ := spelling_first x
  obtain ⟨solid, other⟩ := number_first begins
  rw [spelled] at parsed ⊢
  simp only [List.cons_append, parseValue, skipBlanks_cons solid] at parsed ⊢
  split
  all_goals first
    | rename_i same
      obtain ⟨rfl, -⟩ := List.cons.inj same
      exact absurd (by decide) other
    | rw [parsed, Option.map_some]

/-- The elements of an array from the first on, or the members of an object. -/
def spellList : List Json → List Char
  | [] => [']']
  | first :: rest => first.spell ++ spellElements rest

def spellFields : List (String × Json) → List Char
  | [] => ['}']
  | (name, value) :: rest => quoted name ++ ':' :: (value.spell ++ spellMembers rest)

theorem ends_spellElements (elements : List Json) (rest : List Char) :
    Ends (spellElements elements ++ rest) := by
  intro char first
  cases elements <;> cases first <;> decide

theorem ends_spellMembers (members : List (String × Json)) (rest : List Char) :
    Ends (spellMembers members ++ rest) := by
  intro char first
  cases members <;> cases first <;> decide

theorem spellElements_cons (first : Json) (rest : List Json) :
    spellElements (first :: rest) = ',' :: spellList (first :: rest) := rfl

theorem spellMembers_cons (first : String × Json) (rest : List (String × Json)) :
    spellMembers (first :: rest) = ',' :: spellFields (first :: rest) := rfl

theorem quoted_length (s : String) : (quoted s).length = (s.toList.flatMap escaped).length + 2 := by
  simp [quoted]

theorem parseString_string (s : String) (rest : List Char) (fuel : ℕ) (enough : (quoted s).length ≤ fuel + 1) :
    parseString fuel (s.toList.flatMap escaped ++ '"' :: rest) = some (s.toList, rest) := by
  rw [quoted_length] at enough
  exact parseString_quoted s.toList rest (by omega)

/-- An array that does not end at once is read from its first element on. -/
theorem parseValue_array {fuel : ℕ} {first : Char} (solid : isBlank first = false) (other : first ≠ ']')
    (rest : List Char) : parseValue (fuel + 1) ('[' :: first :: rest) =
      (parseElements fuel (first :: rest)).map fun read => (.array read.1, read.2) := by
  have skipped := skipBlanks_cons (show isBlank '[' = false by decide) (first :: rest)
  simp only [parseValue, skipped, skipBlanks_cons solid]
  split
  next ended =>
    exact absurd (List.cons.inj ended).1 other
  next => rfl

theorem parseValue_object (fuel : ℕ) (rest : List Char) : parseValue (fuel + 1) ('{' :: '"' :: rest) =
    (parseMembers fuel ('"' :: rest)).map fun read => (ofMembers read.1, read.2) := by
  have skipped := skipBlanks_cons (show isBlank '{' = false by decide) ('"' :: rest)
  have quote := skipBlanks_cons (show isBlank '"' = false by decide) rest
  simp only [parseValue, skipped, quote]
  rfl

mutual

theorem parseValue_spell : (value : Json) → value.Plain → ∀ {fuel : ℕ} {rest : List Char},
    value.spell.length ≤ fuel → Ends rest → parseValue fuel (value.spell ++ rest) = some (value, rest)
  | value, plain, 0, rest, enough, ends => by
    obtain ⟨first, others, spelled, -⟩ := spell_first plain
    rw [spelled] at enough
    cases enough
  | .null, plain, fuel + 1, rest, enough, ends => rfl
  | .boolean true, plain, fuel + 1, rest, enough, ends => rfl
  | .boolean false, plain, fuel + 1, rest, enough, ends => rfl
  | .number value, plain, fuel + 1, rest, enough, ends => by
    obtain ⟨x, rfl⟩ := plain
    exact parseValue_number x ends
  | .string value, plain, fuel + 1, rest, enough, ends => by
    have read := parseString_string value rest _ enough
    show (parseString fuel (value.toList.flatMap escaped ++ ['"'] ++ rest)).map _ = _
    rw [List.append_assoc, List.singleton_append, read, Option.map_some]
    exact congrArg (fun value => some (string value, rest)) String.ofList_toList
  | .array [], plain, fuel + 1, rest, enough, ends => rfl
  | .array (first :: others), plain, fuel + 1, rest, enough, ends => by
    have read := @parseElements_spell (first :: others) plain (List.cons_ne_nil _ _) fuel rest
      (Nat.le_of_succ_le_succ enough)
    obtain ⟨char, chars, spelled, solid, other⟩ := spell_first plain.1
    show parseValue (fuel + 1) ('[' :: (spellList (first :: others) ++ rest)) = _
    simp only [spellList, spelled, List.cons_append] at read ⊢
    rw [parseValue_array solid other, read, Option.map_some]
  | .object [], plain, fuel + 1, rest, enough, ends => rfl
  | .object ((name, value) :: others), plain, fuel + 1, rest, enough, ends => by
    have read := @parseMembers_spell ((name, value) :: others) plain.2 (List.cons_ne_nil _ _) fuel rest
      (Nat.le_of_succ_le_succ enough)
    show parseValue (fuel + 1) ('{' :: (spellFields ((name, value) :: others) ++ rest)) = _
    simp only [spellFields, quoted, List.cons_append] at read ⊢
    rw [parseValue_object, read, Option.map_some, ofMembers_of_nodup plain.1]

theorem parseElements_spell : (elements : List Json) → PlainElements elements → elements ≠ [] →
    ∀ {fuel : ℕ} {rest : List Char}, (spellList elements).length ≤ fuel →
      parseElements fuel (spellList elements ++ rest) = some (elements, rest)
  | [], plain, some_, _, _, _ => absurd rfl some_
  | first :: others, plain, some_, fuel, rest, enough => by
    have lengths : (spellList (first :: others)).length = first.spell.length + (spellElements others).length :=
      List.length_append
    -- a comma or the bracket follows, so the fuel is more than the element takes
    have closes : 1 ≤ (spellElements others).length := by cases others <;> simp [spellElements]
    obtain ⟨fuel, rfl⟩ : ∃ less, fuel = less + 1 := ⟨fuel - 1, by omega⟩
    have read := @parseValue_spell first plain.1 fuel (spellElements others ++ rest) (by omega)
      (ends_spellElements others rest)
    rw [spellList, List.append_assoc, parseElements, read]
    cases others with
    | nil => rfl
    | cons second others =>
      have readRest := @parseElements_spell (second :: others) plain.2 (List.cons_ne_nil _ _) fuel rest
        (by rw [spellElements_cons, List.length_cons] at lengths; omega)
      rw [spellElements_cons, List.cons_append]
      show (parseElements fuel (spellList (second :: others) ++ rest)).bind _ = _
      rw [readRest]
      rfl

theorem parseMembers_spell : (members : List (String × Json)) → PlainMembers members → members ≠ [] →
    ∀ {fuel : ℕ} {rest : List Char}, (spellFields members).length ≤ fuel →
      parseMembers fuel (spellFields members ++ rest) = some (members, rest)
  | [], plain, some_, _, _, _ => absurd rfl some_
  | (name, value) :: others, plain, some_, fuel, rest, enough => by
    have lengths : (spellFields ((name, value) :: others)).length =
        (quoted name).length + (value.spell.length + (spellMembers others).length + 1) := by
      rw [spellFields, List.length_append, List.length_cons, List.length_append]
    -- a comma or the brace follows, so the fuel is more than the name and the value take
    have closes : 1 ≤ (spellMembers others).length := by cases others <;> simp [spellMembers]
    obtain ⟨fuel, rfl⟩ : ∃ less, fuel = less + 1 := ⟨fuel - 1, by omega⟩
    have readName := parseString_string name (':' :: (value.spell ++ spellMembers others) ++ rest)
      fuel (by omega)
    have read := @parseValue_spell value plain.1 fuel (spellMembers others ++ rest) (by omega)
      (ends_spellMembers others rest)
    have quote := skipBlanks_cons (show isBlank '"' = false by decide)
      (name.toList.flatMap escaped ++ '"' :: (':' :: (value.spell ++ spellMembers others) ++ rest))
    have opens : spellFields ((name, value) :: others) ++ rest = '"' :: (name.toList.flatMap escaped ++
        '"' :: (':' :: (value.spell ++ spellMembers others) ++ rest)) := by
      simp [spellFields, quoted]
    -- the name, the colon and the value are read in turn, and then the rest
    rw [opens, parseMembers, quote]
    show (parseString fuel _).bind _ = _
    rw [readName]
    show (parseValue fuel (value.spell ++ spellMembers others ++ rest)).bind _ = _
    rw [List.append_assoc, read]
    cases others with
    | nil => exact congrArg (fun name => some ([(name, value)], rest)) String.ofList_toList
    | cons second others =>
      have readRest := @parseMembers_spell (second :: others) plain.2 (List.cons_ne_nil _ _) fuel rest
        (by rw [spellMembers_cons, List.length_cons] at lengths; omega)
      rw [spellMembers_cons, List.cons_append]
      show (parseMembers fuel (spellFields (second :: others) ++ rest)).bind _ = _
      rw [readRest]
      exact congrArg (fun name => some ((name, value) :: second :: others, rest)) String.ofList_toList

end

/-- `JSON.parse(JSON.stringify(value))` is the value. -/
theorem parse_stringify {value : Json} (plain : value.Plain) : parse value.stringify = some value := by
  have read := @parseValue_spell value plain value.spell.length [] (le_refl _) (by simp [Ends])
  rw [List.append_nil] at read
  rw [parse, stringify, String.toList_ofList, read]
  rfl

end Json

end TimeOff.Lib
