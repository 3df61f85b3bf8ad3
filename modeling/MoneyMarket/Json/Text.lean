import MoneyMarket.Json
import MoneyMarket.Numeral

/-! # JSON text

The reader takes exactly the standard grammar: no comments, no trailing commas,
no leading zeros, no bare control characters in strings, nothing but blanks
after the value. Half of a surrogate pair may be escaped only where it is not
needed as text: in values, and in keys below the outermost object, where it
reads as the replacement character. The writer puts no blanks.
-/

namespace MoneyMarket.Json

/-- Drops the blanks in front of a token. -/
def skipBlanks (cs : List Char) : List Char := cs.dropWhile Char.isWhitespace

/-- A code unit written with four hexadecimal digits. -/
def readUnit? : List Char → Option (Nat × List Char)
  | a :: b :: c :: d :: rest => (Numeral.read? 16 [a, b, c, d]).map (·, rest)
  | _ => none

/-- The character of a one-letter escape. -/
def unescape? : Char → Option Char
  | '"' => some '"'
  | '\\' => some '\\'
  | '/' => some '/'
  | 'b' => some '\x08'
  | 'f' => some '\x0c'
  | 'n' => some '\n'
  | 'r' => some '\r'
  | 't' => some '\t'
  | _ => none

def isHighSurrogate (n : Nat) : Bool := 0xD800 ≤ n && n < 0xDC00

def isLowSurrogate (n : Nat) : Bool := 0xDC00 ≤ n && n < 0xE000

/-- The second half of a surrogate pair, if it is escaped next. -/
def readLow? : List Char → Option (Nat × List Char)
  | '\\' :: 'u' :: rest => (readUnit? rest).filter fun r => isLowSurrogate r.1
  | _ => none

/-- What a string literal holds. -/
structure Literal where
  /-- The characters read so far, last one first. -/
  reversed : List Char
  /-- Whether all of them are characters. -/
  sound : Bool

def Literal.push (l : Literal) (c : Char) : Literal := { l with reversed := c :: l.reversed }

def Literal.pushBroken (l : Literal) : Literal := ⟨'\ufffd' :: l.reversed, false⟩

def Literal.text (l : Literal) : String := String.ofList l.reversed.reverse

/-- Reads a string literal behind its opening quote. `fuel` bounds the number
of characters. -/
def readLiteral? : (fuel : Nat) → Literal → List Char → Option (Literal × List Char)
  | 0, _, _ => none
  | fuel + 1, l, cs =>
    match cs with
    | [] => none
    | '"' :: rest => some (l, rest)
    | '\\' :: 'u' :: rest =>
      (readUnit? rest).bind fun (unit, rest) =>
        if isHighSurrogate unit then
          match readLow? rest with
          | some (low, rest) =>
            let c := Char.ofNat (0x10000 + (unit - 0xD800) * 0x400 + (low - 0xDC00))
            readLiteral? fuel (l.push c) rest
          | none => readLiteral? fuel l.pushBroken rest
        else if isLowSurrogate unit then readLiteral? fuel l.pushBroken rest
        else readLiteral? fuel (l.push (Char.ofNat unit)) rest
    | '\\' :: c :: rest => (unescape? c).bind fun c => readLiteral? fuel (l.push c) rest
    | c :: rest => if c.toNat < 0x20 then none else readLiteral? fuel (l.push c) rest

/-- The whole part: a zero, or digits that start with another digit. -/
def readWhole? (cs : List Char) : Option (List Char × List Char) :=
  match cs.takeWhile Char.isDigit with
  | [] => none
  | ['0'] => some (['0'], cs.drop 1)
  | '0' :: _ => none
  | digits => some (digits, cs.dropWhile Char.isDigit)

/-- A point and at least one digit, or nothing. -/
def readFraction? : List Char → Option (List Char × List Char)
  | '.' :: rest =>
    match rest.takeWhile Char.isDigit with
    | [] => none
    | digits => some ('.' :: digits, rest.dropWhile Char.isDigit)
  | cs => some ([], cs)

/-- A mark, an optional sign and at least one digit, or nothing. -/
def readExponentPart? : List Char → Option (List Char × List Char)
  | c :: rest =>
    if c = 'e' || c = 'E' then
      let (sign, rest) :=
        match rest with
        | '+' :: rest => (['+'], rest)
        | '-' :: rest => (['-'], rest)
        | rest => ([], rest)
      match rest.takeWhile Char.isDigit with
      | [] => none
      | digits => some (c :: sign ++ digits, rest.dropWhile Char.isDigit)
    else some ([], c :: rest)
  | [] => some ([], [])

/-- The value of a number: whole numbers of 64 bits are kept as such, and a
negative zero is not one of them. -/
def Numerals.value (n : Numerals) : Json :=
  let literal := Json.real n
  if n.fraction.isEmpty && n.exponent.isEmpty then
    match Numeral.read? 10 n.whole with
    | none => literal
    | some magnitude =>
      if n.sign.isEmpty then
        if magnitude < UInt64.size then .int magnitude else literal
      else if 0 < magnitude && 2 * magnitude ≤ UInt64.size then .int (-magnitude)
      else literal
  else literal

/-- Reads a number. -/
def readNumber? (cs : List Char) : Option (Json × List Char) := do
  let (sign, cs) :=
    match cs with
    | '-' :: rest => (['-'], rest)
    | rest => ([], rest)
  let (whole, cs) ← readWhole? cs
  let (fraction, cs) ← readFraction? cs
  let (exponent, cs) ← readExponentPart? cs
  return (Numerals.value { sign, whole, fraction, exponent }, cs)

mutual

/-- Reads a value. `outer` says that keys have to be text; `fuel` bounds the
number of steps and is more than twice the number of characters. -/
def readValue? (outer : Bool) : (fuel : Nat) → List Char → Option (Json × List Char)
  | 0, _ => none
  | fuel + 1, cs =>
    match skipBlanks cs with
    | 'n' :: 'u' :: 'l' :: 'l' :: rest => some (.null, rest)
    | 't' :: 'r' :: 'u' :: 'e' :: rest => some (.bool true, rest)
    | 'f' :: 'a' :: 'l' :: 's' :: 'e' :: rest => some (.bool false, rest)
    | '"' :: rest =>
      (readLiteral? (rest.length + 1) ⟨[], true⟩ rest).map fun (l, rest) =>
        (if l.sound then .str l.text else .garbled, rest)
    | '[' :: rest =>
      match skipBlanks rest with
      | ']' :: rest => some (.arr [], rest)
      | rest => (readItems? fuel rest).map fun (items, rest) => (.arr items, rest)
    | '\x7b' :: rest =>
      match skipBlanks rest with
      | '\x7d' :: rest => some (.obj [], rest)
      | rest => (readMembers? outer fuel rest).map fun (members, rest) => (.obj members, rest)
    | rest => readNumber? rest

/-- Reads the items of an array up to its closing bracket. -/
def readItems? : (fuel : Nat) → List Char → Option (List Json × List Char)
  | 0, _ => none
  | fuel + 1, cs =>
    (readValue? false fuel cs).bind fun (item, rest) =>
      match skipBlanks rest with
      | ',' :: rest => (readItems? fuel rest).map fun (items, rest) => (item :: items, rest)
      | ']' :: rest => some ([item], rest)
      | _ => none

/-- Reads the members of an object up to its closing brace. -/
def readMembers? (outer : Bool) : (fuel : Nat) → List Char →
    Option (List (String × Json) × List Char)
  | 0, _ => none
  | fuel + 1, cs =>
    match skipBlanks cs with
    | '"' :: rest =>
      (readLiteral? (rest.length + 1) ⟨[], true⟩ rest).bind fun (key, rest) =>
        if outer && !key.sound then none
        else
          match skipBlanks rest with
          | ':' :: rest =>
            (readValue? false fuel rest).bind fun (value, rest) =>
              match skipBlanks rest with
              | ',' :: rest =>
                (readMembers? outer fuel rest).map fun (members, rest) =>
                  ((key.text, value) :: members, rest)
              | '\x7d' :: rest => some ([(key.text, value)], rest)
              | _ => none
          | _ => none
    | _ => none

end

/-- The value that a text denotes. -/
def ofText? (s : String) : Option Json :=
  let cs := s.toList
  (readValue? true (2 * cs.length + 2) cs).bind fun (value, rest) =>
    if (skipBlanks rest).isEmpty then some value else none

/-- A character inside quotes. -/
def escape (c : Char) : List Char :=
  if c = '"' || c = '\\' then ['\\', c]
  else if c.toNat < 0x20 then
    '\\' :: 'u' :: '0' :: '0' :: [(c.toNat / 16).digitChar, (c.toNat % 16).digitChar]
  else [c]

/-- A string literal. -/
def quote (s : String) : String := String.ofList ('"' :: s.toList.flatMap escape ++ ['"'])

mutual

/-- The text of a value. -/
def text : Json → String
  | .null => "null"
  | .bool true => "true"
  | .bool false => "false"
  | .int n => toString n
  | .real literal => literal.text
  | .str s => quote s
  | .garbled => quote "\ufffd"
  | .arr items => "[" ++ ",".intercalate (texts items) ++ "]"
  | .obj members => "\x7b" ++ ",".intercalate (memberTexts members) ++ "\x7d"

def texts : List Json → List String
  | [] => []
  | item :: rest => text item :: texts rest

def memberTexts : List (String × Json) → List String
  | [] => []
  | (key, value) :: rest => (quote key ++ ":" ++ text value) :: memberTexts rest

end

end MoneyMarket.Json
