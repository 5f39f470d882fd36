import TimeOff.Lib.NumberString

/-! # Query strings

`application/x-www-form-urlencoded`: how `URLSearchParams` spells the bytes of a name
or a value, and how it takes a query apart.  A component is decoded when its bytes are
UTF-8; what is made of others is left out.
-/

set_option autoImplicit false

namespace TimeOff.Lib

def hexDigit (n : ℕ) : Char := "0123456789ABCDEF".toList.getD n '0'

/-- Letters, digits and four marks stand for themselves. -/
def encodeByte (byte : UInt8) : List Char :=
  let char := Char.ofNat byte.toNat
  if byte < 128 ∧ (char.isAlphanum ∨ char ∈ ['*', '-', '.', '_']) then [char]
  else if char = ' ' then ['+']
  else ['%', hexDigit (byte.toNat / 16), hexDigit (byte.toNat % 16)]

def decodeBytes : List Char → List UInt8
  | [] => []
  | '+' :: rest => 32 :: decodeBytes rest
  | '%' :: high :: low :: rest =>
    match integerIn? 16 [high, low] with
    | some byte => UInt8.ofNat byte :: decodeBytes rest
    | none => 37 :: decodeBytes (high :: low :: rest)
  | char :: rest => String.utf8EncodeChar char ++ decodeBytes rest

def decodeComponent (chars : List Char) : Option String :=
  String.fromUTF8? (decodeBytes chars).toByteArray

/-- The name before the first `=`, and the value behind it. -/
def decodePair (chars : List Char) : Option (String × String) := do
  let name ← decodeComponent (chars.takeWhile (· ≠ '='))
  let value ← decodeComponent ((chars.dropWhile (· ≠ '=')).drop 1)
  some (name, value)

/-- The pairs of a query, an empty piece being none. -/
def decodeQuery (query : List Char) : Option (List (String × String)) :=
  ((query.splitOn '&').filter (· ≠ [])).mapM decodePair

def encodeComponent (s : String) : List Char := s.toUTF8.data.toList.flatMap encodeByte

def encodePair (pair : String × String) : List Char :=
  encodeComponent pair.1 ++ '=' :: encodeComponent pair.2

/-- The pairs of a query, spelled one after the other. -/
def encodeQuery (pairs : List (String × String)) : List Char :=
  ['&'].intercalate (pairs.map encodePair)

/-! ## What is encoded is decoded -/

theorem decodeBytes_plain {char : Char} (plus : char ≠ '+') (percent : char ≠ '%') (rest : List Char) :
    decodeBytes (char :: rest) = String.utf8EncodeChar char ++ decodeBytes rest := by
  rw [decodeBytes.eq_def]
  split
  next none_ => cases none_
  next same =>
    cases same
    exact absurd rfl plus
  next same =>
    cases same
    exact absurd rfl percent
  next same =>
    cases same
    rfl

/-- The characters that stand for themselves are of one byte, and none is a mark of the encoding. -/
theorem unreserved_char : ∀ n < 128,
    (Char.ofNat n).isAlphanum = true ∨ Char.ofNat n ∈ ['*', '-', '.', '_'] →
      Char.ofNat n ∉ ['+', '%', '&', '='] ∧ String.utf8EncodeChar (Char.ofNat n) = [UInt8.ofNat n] := by
  decide +kernel

theorem hexDigit_read : ∀ n < 256, integerIn? 16 [hexDigit (n / 16), hexDigit (n % 16)] = some n := by
  decide +kernel

theorem space_byte : ∀ n < 256, Char.ofNat n = ' ' → n = 32 := by decide +kernel

theorem decodeBytes_encodeByte (byte : UInt8) (rest : List Char) :
    decodeBytes (encodeByte byte ++ rest) = byte :: decodeBytes rest := by
  have small : byte.toNat < 256 := byte.toNat_lt
  simp only [encodeByte]
  split
  next unreserved =>
    have ascii : byte.toNat < 128 := UInt8.lt_iff_toNat_lt.mp unreserved.1
    obtain ⟨marks, bytes⟩ := unreserved_char byte.toNat ascii unreserved.2
    simp only [List.mem_cons, List.not_mem_nil, or_false, not_or] at marks
    rw [List.singleton_append, decodeBytes_plain marks.1 marks.2.1, bytes, UInt8.ofNat_toNat]
    rfl
  next =>
    split
    next space =>
      -- a plus stands for a space
      have same : byte = 32 := UInt8.toNat_inj.mp (space_byte byte.toNat small space)
      rw [same]
      rfl
    next =>
      have read := hexDigit_read byte.toNat small
      simp only [List.cons_append, List.nil_append, decodeBytes, read, UInt8.ofNat_toNat]

theorem decodeBytes_encoded (bytes : List UInt8) : decodeBytes (bytes.flatMap encodeByte) = bytes := by
  induction bytes with
  | nil => rfl
  | cons byte rest inductionHypothesis =>
    rw [List.flatMap_cons, decodeBytes_encodeByte, inductionHypothesis]

theorem decodeComponent_encodeComponent (s : String) : decodeComponent (encodeComponent s) = some s := by
  have bytes : s.toUTF8.data.toList.toByteArray = s.toByteArray := by
    apply ByteArray.ext
    simp
  rw [decodeComponent, encodeComponent, decodeBytes_encoded, bytes, String.fromUTF8?,
    dif_pos s.isValidUTF8]
  rfl

theorem encodeByte_undelimited : ∀ n < 256,
    '&' ∉ encodeByte (UInt8.ofNat n) ∧ '=' ∉ encodeByte (UInt8.ofNat n) := by
  decide +kernel

/-- No delimiter of the query is inside a component. -/
theorem encodeComponent_undelimited (s : String) :
    '&' ∉ encodeComponent s ∧ '=' ∉ encodeComponent s := by
  have each : ∀ byte : UInt8, '&' ∉ encodeByte byte ∧ '=' ∉ encodeByte byte := by
    intro byte
    have undelimited := encodeByte_undelimited byte.toNat byte.toNat_lt
    rw [UInt8.ofNat_toNat] at undelimited
    exact undelimited
  simp only [encodeComponent, List.mem_flatMap, not_exists, not_and]
  exact ⟨fun byte _ => (each byte).1, fun byte _ => (each byte).2⟩

theorem decodePair_encodePair (pair : String × String) : decodePair (encodePair pair) = some pair := by
  -- the first `=` is the one between the name and the value
  have before : ∀ char ∈ encodeComponent pair.1, decide (char ≠ '=') = true := by
    intro char mem
    apply decide_eq_true
    rintro rfl
    exact (encodeComponent_undelimited pair.1).2 mem
  have name : (encodePair pair).takeWhile (· ≠ '=') = encodeComponent pair.1 := by
    rw [encodePair, List.takeWhile_append_of_pos before]
    simp
  have value : ((encodePair pair).dropWhile (· ≠ '=')).drop 1 = encodeComponent pair.2 := by
    rw [encodePair, List.dropWhile_append_of_pos before]
    simp
  rw [decodePair, name, value, decodeComponent_encodeComponent, decodeComponent_encodeComponent]
  rfl

theorem mapM_decodePair (pairs : List (String × String)) :
    (pairs.map encodePair).mapM decodePair = some pairs := by
  induction pairs with
  | nil => rfl
  | cons pair rest inductionHypothesis =>
    rw [List.map_cons, List.mapM_cons, decodePair_encodePair, inductionHypothesis]
    rfl

/-- A query is taken apart into the pairs it was made of. -/
theorem decodeQuery_encodeQuery (pairs : List (String × String)) :
    decodeQuery (encodeQuery pairs) = some pairs := by
  have pieces : ((encodeQuery pairs).splitOn '&').filter (· ≠ []) = pairs.map encodePair := by
    cases pairs with
    | nil => rfl
    | cons first rest =>
      -- a piece holds no `&`, and at least its `=`
      have undelimited : ∀ piece ∈ (first :: rest).map encodePair, '&' ∉ piece := by
        intro piece mem
        obtain ⟨pair, _, rfl⟩ := List.mem_map.mp mem
        simp [encodePair, (encodeComponent_undelimited pair.1).1, (encodeComponent_undelimited pair.2).1]
      have split := List.splitOn_intercalate '&' undelimited (List.cons_ne_nil _ _)
      rw [encodeQuery, split, List.filter_eq_self]
      intro piece mem
      obtain ⟨pair, _, rfl⟩ := List.mem_map.mp mem
      simp [encodePair]
  rw [decodeQuery, pieces, mapM_decodePair]

end TimeOff.Lib
