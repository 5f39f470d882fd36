import TimeOff.Lib.NumberString

/-! # JSON texts

`JSON.stringify` and `JSON.parse` on values without functions, dates and cycles.  An
object is the list of its members in the order in which they were first set.  The
parser is given fuel, of which the length of the text is enough.
-/

set_option autoImplicit false

namespace TimeOff.Lib

inductive Json where
  | null
  | boolean (value : Bool)
  | number (value : Number)
  | string (value : String)
  | array (elements : List Json)
  | object (members : List (String × Json))

/-! ## From values to texts -/

/-- The escapes of one letter: the letter and the character it stands for. -/
def shortEscapes : List (Char × Char) :=
  [('"', '"'), ('\\', '\\'), ('b', '\x08'), ('f', '\x0c'), ('n', '\x0a'),
    ('r', '\x0d'), ('t', '\x09')]

/-- The letter that the character is escaped by. -/
def shortEscape? (char : Char) : Option Char :=
  (shortEscapes.find? fun escape => escape.2 = char).map Prod.fst

/-- `QuoteJSONString` for one character: control characters are escaped, and what ends or escapes. -/
def escaped (char : Char) : List Char :=
  match shortEscape? char with
  | some letter => ['\\', letter]
  | none =>
    if char.toNat < 32 then
      ['\\', 'u', '0', '0', Nat.digitChar (char.toNat / 16), Nat.digitChar (char.toNat % 16)]
    else [char]

def quoted (s : String) : List Char := '"' :: (s.toList.flatMap escaped ++ ['"'])

/-- A number that is not finite becomes null. -/
def spellNumber : Number → List Char
  | .finite x => x.spelling
  | .nan | .infinity _ => ['n', 'u', 'l', 'l']

namespace Json

mutual

def spell : Json → List Char
  | null => ['n', 'u', 'l', 'l']
  | boolean true => ['t', 'r', 'u', 'e']
  | boolean false => ['f', 'a', 'l', 's', 'e']
  | number value => spellNumber value
  | string value => quoted value
  | array [] => ['[', ']']
  | array (first :: rest) => '[' :: (first.spell ++ spellElements rest)
  | object [] => ['{', '}']
  | object ((name, value) :: rest) =>
    '{' :: (quoted name ++ ':' :: (value.spell ++ spellMembers rest))

/-- The elements behind the first, and the end of the array. -/
def spellElements : List Json → List Char
  | [] => [']']
  | element :: rest => ',' :: (element.spell ++ spellElements rest)

def spellMembers : List (String × Json) → List Char
  | [] => ['}']
  | (name, value) :: rest => ',' :: (quoted name ++ ':' :: (value.spell ++ spellMembers rest))

end

/-- `JSON.stringify(value)`. -/
def stringify (value : Json) : String := String.ofList value.spell

/-! ## From texts to values -/

/-- Tab, line feed, carriage return and space. -/
def isBlank (char : Char) : Bool := [9, 10, 13, 32].contains char.toNat

def skipBlanks (chars : List Char) : List Char := chars.dropWhile isBlank

/-- The code unit behind the mark of a long escape. -/
def codeUnit? : List Char → Option (ℕ × List Char)
  | a :: b :: c :: d :: rest => (integerIn? 16 [a, b, c, d]).map fun unit => (unit, rest)
  | _ => none

/-- The character behind a backslash.  A surrogate stands for a character only with its partner;
one that stands alone has no place in a `String`. -/
def escapedChar? : List Char → Option (Char × List Char)
  | 'u' :: rest => do
    let (unit, rest) ← codeUnit? rest
    if unit < 0xd800 ∨ 0xe000 ≤ unit then some (Char.ofNat unit, rest)
    else match rest with
      | '\\' :: 'u' :: rest =>
        let (low, rest) ← codeUnit? rest
        if unit < 0xdc00 ∧ 0xdc00 ≤ low ∧ low < 0xe000 then
          some (Char.ofNat (0x10000 + (unit - 0xd800) * 0x400 + (low - 0xdc00)), rest)
        else none
      | _ => none
  | '/' :: rest => some ('/', rest)
  | letter :: rest =>
    (shortEscapes.find? fun escape => escape.1 = letter).map fun escape => (escape.2, rest)
  | [] => none

/-- The characters up to the closing mark. -/
def parseString : ℕ → List Char → Option (List Char × List Char)
  | 0, _ | _, [] => none
  | fuel + 1, first :: rest =>
    if first = '"' then some ([], rest)
    else if first = '\\' then do
      let (char, rest) ← escapedChar? rest
      let (chars, rest) ← parseString fuel rest
      some (char :: chars, rest)
    else if first.toNat < 32 then none
    else do
      let (chars, rest) ← parseString fuel rest
      some (first :: chars, rest)

def isNumberChar (char : Char) : Bool :=
  char.isDigit || ['.', 'e', 'E', '+', '-'].contains char

/-- No zero in front of other digits, and a digit behind the point. -/
def strictDecimal? (chars : List Char) : Option ℚ :=
  let whole := chars.takeWhile Char.isDigit
  let bare : Bool := match chars.dropWhile Char.isDigit with
    | '.' :: rest => rest.takeWhile Char.isDigit = []
    | _ => false
  if whole = [] ∨ whole.head? = some '0' ∧ whole ≠ ['0'] ∨ bare = true then none
  else unsignedDecimal? chars

def parseNumber (chars : List Char) : Option (Number × List Char) :=
  let rest := chars.dropWhile isNumberChar
  match chars.takeWhile isNumberChar with
  | '-' :: magnitude => (strictDecimal? magnitude).map fun value => ((Number.ofRat value).neg, rest)
  | magnitude => (strictDecimal? magnitude).map fun value => (Number.ofRat value, rest)

/-- A member that is set again keeps its place. -/
def setMember (members : List (String × Json)) (name : String) (value : Json) : List (String × Json) :=
  if members.any fun member => member.1 = name then
    members.map fun member => if member.1 = name then (name, value) else member
  else members ++ [(name, value)]

/-- The object that the members are set on one after the other. -/
def ofMembers (members : List (String × Json)) : Json :=
  .object (members.foldl (fun members member => setMember members member.1 member.2) [])

mutual

def parseValue : ℕ → List Char → Option (Json × List Char)
  | 0, _ => none
  | fuel + 1, chars =>
    match skipBlanks chars with
    | 'n' :: 'u' :: 'l' :: 'l' :: rest => some (.null, rest)
    | 't' :: 'r' :: 'u' :: 'e' :: rest => some (.boolean true, rest)
    | 'f' :: 'a' :: 'l' :: 's' :: 'e' :: rest => some (.boolean false, rest)
    | '"' :: rest =>
      (parseString fuel rest).map fun (chars, rest) => (.string (String.ofList chars), rest)
    | '[' :: rest =>
      match skipBlanks rest with
      | ']' :: rest => some (.array [], rest)
      | rest => (parseElements fuel rest).map fun (elements, rest) => (.array elements, rest)
    | '{' :: rest =>
      match skipBlanks rest with
      | '}' :: rest => some (.object [], rest)
      | rest => (parseMembers fuel rest).map fun (members, rest) => (ofMembers members, rest)
    | chars => (parseNumber chars).map fun (value, rest) => (.number value, rest)

/-- One element or more, up to the closing bracket. -/
def parseElements : ℕ → List Char → Option (List Json × List Char)
  | 0, _ => none
  | fuel + 1, chars => do
    let (first, rest) ← parseValue fuel chars
    match skipBlanks rest with
    | ']' :: rest => some ([first], rest)
    | ',' :: rest =>
      let (elements, rest) ← parseElements fuel rest
      some (first :: elements, rest)
    | _ => none

/-- One member or more, up to the closing brace. -/
def parseMembers : ℕ → List Char → Option (List (String × Json) × List Char)
  | 0, _ => none
  | fuel + 1, chars =>
    match skipBlanks chars with
    | '"' :: rest => do
      let (name, rest) ← parseString fuel rest
      match skipBlanks rest with
      | ':' :: rest =>
        let (value, rest) ← parseValue fuel rest
        match skipBlanks rest with
        | '}' :: rest => some ([(String.ofList name, value)], rest)
        | ',' :: rest =>
          let (members, rest) ← parseMembers fuel rest
          some ((String.ofList name, value) :: members, rest)
        | _ => none
      | _ => none
    | _ => none

end

/-- `JSON.parse(text)`; `none` is a SyntaxError. -/
def parse (text : String) : Option Json :=
  match parseValue text.toList.length text.toList with
  | some (value, rest) => if skipBlanks rest = [] then some value else none
  | none => none

end Json

end TimeOff.Lib
