import MoneyMarket.Numeral

/-! # Numbers in JSON text

A number that is not a whole one of 64 bits is kept as it is written and read
in double precision when its value is asked for. The digits count up to the
first one that takes them out of 64 bits; every further one only scales. The
number of the digits and the power of ten are rounded to double precision
each, and so is their product or quotient.
-/

namespace MoneyMarket.Json

/-- The parts of a number's text, as they are written. -/
structure Numerals where
  /-- Nothing, or a minus sign. -/
  sign : List Char
  whole : List Char
  /-- Nothing, or a point and digits. -/
  fraction : List Char
  /-- Nothing, or a mark, an optional sign and digits. -/
  exponent : List Char

/-- Goes on with a number by taking digits while it has at most 64 bits: the
number, and how many digits are left over. -/
def takeDigits (n : Nat) : List Char → Nat × Nat
  | [] => (n, 0)
  | c :: rest =>
    let next := n * 10 + (c.toNat - '0'.toNat)
    if next < UInt64.size then takeDigits next rest else (n, rest.length + 1)

/-- The double that is nearest to a power of ten. -/
def powerOfTen (exponent : Nat) : Float := Float.ofScientific 1 false exponent

/-- Divides by `10 ^ exponent`, in steps that have a double each. -/
def scaleDown (x : Float) (exponent : Nat) : Float :=
  if exponent ≤ 308 then x / powerOfTen exponent
  else if x == 0 then x
  else scaleDown (x / powerOfTen 308) (exponent - 308)
termination_by exponent

/-- Multiplies by `10 ^ exponent`, unless that is beyond the largest double. -/
def scaleUp? (x : Float) (exponent : Nat) : Option Float :=
  if x == 0 then some x
  else if 308 < exponent then none
  else
    let product := x * powerOfTen exponent
    if product.isInf then none else some product

namespace Numerals

/-- The whole text. -/
def text (n : Numerals) : String :=
  String.ofList (n.sign ++ n.whole ++ n.fraction ++ n.exponent)

/-- The number that the exponent part denotes. -/
def exponentValue (n : Numerals) : Int :=
  let magnitude (digits : List Char) : Int := ((Numeral.read? 10 digits).getD 0 : Nat)
  match n.exponent.drop 1 with
  | '-' :: digits => -magnitude digits
  | '+' :: digits => magnitude digits
  | digits => magnitude digits

/-- The number in double precision, unless it is beyond the largest double. -/
def float? (n : Numerals) : Option Float :=
  let digits := n.fraction.drop 1
  let whole := takeDigits 0 n.whole
  let all := takeDigits whole.1 digits
  let exponent := n.exponentValue + whole.2 - (digits.length - all.2 : Nat)
  let unscaled := Float.ofNat all.1
  let magnitude :=
    if exponent < 0 then some (scaleDown unscaled exponent.natAbs)
    else scaleUp? unscaled exponent.toNat
  magnitude.map fun x => if n.sign.isEmpty then x else -x

end Numerals

end MoneyMarket.Json
