import MoneyMarket.Decimal

/-! # Reading decimals

The plain form is an optional sign and digits with at most one point; after
the first digit an underscore may stand anywhere and means nothing. A number
whose whole part needs more than 96 bits is refused. Digits behind the point
are taken while they fit into 96 bits and 28 places; the first digit that does
not fit decides the rounding, half up in magnitude, and only digits and
underscores may follow it. A zero that is read so has no sign.

The scientific form is a plain number, `e` or `E`, and a whole exponent of at
most 28 in magnitude. A negative exponent rounds to 28 places, half up in
magnitude and with the sign kept; a positive one has to leave a number that
fits.
-/

namespace MoneyMarket.Decimal

/-- The digits read so far. -/
structure Progress where
  /-- The digits as one number. -/
  coefficient : Nat
  /-- How many of them stand behind the point, if there was a point. -/
  places : Option Nat
  /-- Whether there was a digit. -/
  started : Bool

namespace Progress

def scale (p : Progress) : Nat := p.places.getD 0

/-- Adds one unit in the last place. When that takes the coefficient out of 96
bits, the last place is given up. -/
def roundUp (p : Progress) : Option Progress :=
  let coefficient := p.coefficient + 1
  if coefficient < Nat.pow 2 96 then some { p with coefficient }
  else
    match p.places with
    | some (places + 1) =>
      some { p with coefficient := (coefficient + 4) / 10, places := some places }
    | _ => none

/-- Ends at a digit for which there is no more room. -/
def round (p : Progress) (digit : Nat) (rest : List Char) : Option Progress :=
  if p.places.isNone || !rest.all (fun c => c.isDigit || c = '_') then none
  else if 5 ≤ digit then p.roundUp
  else some p

/-- Whether all places behind the point are taken. -/
def full (p : Progress) : Bool :=
  match p.places with
  | some places => 28 ≤ places
  | none => false

/-- Whether the digits before the last one leave ample room in 64 bits for one
more. -/
def small (p : Progress) : Bool := p.coefficient / 10 < (UInt64.size - 1) / 10 - 255

end Progress

/-- Reads the characters behind the sign. Where all places are taken by a small
number, an underscore counts as the digit zero. -/
def readDigits (p : Progress) : List Char → Option Progress
  | [] => if p.started then some p else none
  | c :: rest =>
    if c = '_' && p.started then
      if p.full && p.small then p.round 0 rest else readDigits p rest
    else if c = '.' && p.places.isNone then readDigits { p with places := some 0 } rest
    else
      (Numeral.digit? 10 c).bind fun digit =>
        let coefficient := p.coefficient * 10 + digit
        if !p.full && coefficient < Nat.pow 2 96 then
          readDigits { coefficient, places := p.places.map (· + 1), started := true } rest
        else p.round digit rest

/-- The plain form. -/
def readPlain? (cs : List Char) : Option Decimal :=
  let start : Progress := ⟨0, none, false⟩
  let signed (negative : Bool) (p : Progress) : Option Decimal :=
    ofParts? (negative && p.coefficient ≠ 0) p.coefficient p.scale
  match cs with
  | '-' :: rest => (readDigits start rest).bind (signed true)
  | '+' :: rest => (readDigits start rest).bind (signed false)
  | rest => (readDigits start rest).bind (signed false)

/-- The digits of an exponent, with an optional plus. -/
def readExponent? (cs : List Char) : Option Nat :=
  let digits :=
    match cs with
    | '+' :: rest => rest
    | rest => rest
  if digits.isEmpty then none
  else (Numeral.read? 10 digits).filter (· ≤ 28)

/-- The decimal times `10 ^ exponent`: places behind the point are used up
first, then the magnitude grows. -/
def shiftLeft? (d : Decimal) (exponent : Nat) : Option Decimal :=
  if exponent ≤ d.scale then ofParts? d.negative d.magnitude (d.scale - exponent)
  else ofParts? d.negative (d.magnitude * Nat.pow 10 (exponent - d.scale)) 0

/-- The decimal divided by `10 ^ exponent`, rounded half up in magnitude where
it would have more than 28 places. -/
def shiftRight? (d : Decimal) (exponent : Nat) : Option Decimal :=
  let excess := d.scale + exponent - 28
  let unit := Nat.pow 10 excess
  ofParts? d.negative ((d.magnitude + unit / 2) / unit) (d.scale + exponent - excess)

/-- The scientific form. -/
def readScientific? (cs : List Char) : Option Decimal :=
  let isMark (c : Char) : Bool := c = 'e' || c = 'E'
  match cs.dropWhile (!isMark ·) with
  | [] => none
  | _ :: exponent =>
    (readPlain? (cs.takeWhile (!isMark ·))).bind fun base =>
      match exponent with
      | '-' :: digits => (readExponent? digits).bind base.shiftRight?
      | digits => (readExponent? digits).bind base.shiftLeft?

/-- Reads a decimal in either form. -/
def ofText? (s : String) : Option Decimal :=
  (readPlain? s.toList).or (readScientific? s.toList)

end MoneyMarket.Decimal
