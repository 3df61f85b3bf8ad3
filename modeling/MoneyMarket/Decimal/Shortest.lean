import MoneyMarket.Decimal.Reader

/-! # Shortest decimals

A double stands for all numbers that are rounded to it. Its text is the
decimal with the fewest digits among them, the nearest of those to the double
and the larger of two that are equally near, written without an exponent.
-/

namespace MoneyMarket

/-- The magnitude `significand * 2 ^ exponent` of a finite double. -/
structure Double where
  significand : Nat
  exponent : Int
  /-- Whether the double below is only half as far away as the double above. -/
  narrow : Bool

namespace Double

/-- The magnitude of a finite double, from its fields. -/
def ofFloat (x : Float) : Double :=
  let bits := x.toBits.toNat
  let fraction := bits % 4503599627370496
  let biased := bits / 4503599627370496 % 2048
  if biased = 0 then ⟨fraction, -1074, false⟩
  else ⟨4503599627370496 + fraction, biased - 1075, fraction = 0 && 1 < biased⟩

/-- The multiple of `10 ^ place` that stands for the double, if there is one. Two
multiples are next to the double, and both may be rounded to it. The
comparisons are in quarters of the last binary place. -/
def multiple? (x : Double) (place : Int) : Option Nat :=
  let binary := x.exponent - 2
  let quarter := Nat.pow 2 binary.toNat * Nat.pow 10 (-place).toNat
  let unit := Nat.pow 2 (-binary).toNat * Nat.pow 10 place.toNat
  let value := 4 * x.significand * quarter
  let low := (4 * x.significand - (if x.narrow then 1 else 2)) * quarter
  let high := (4 * x.significand + 2) * quarter
  let reads (n : Nat) : Bool :=
    if x.significand % 2 = 0 then low ≤ n * unit && n * unit ≤ high
    else low < n * unit && n * unit < high
  let below := value / unit
  if reads below && !(reads (below + 1) && (2 * below + 1) * unit ≤ 2 * value) then some below
  else if reads (below + 1) then some (below + 1)
  else none

/-- The digits of the text. Going from coarse to fine, the first place that has a
multiple needs the fewest of them. -/
def text? (x : Double) : Option (List Char) :=
  if x.significand = 0 then some ['0']
  else
    (List.range 633).findSome? fun (i : Nat) =>
      let place : Int := 308 - (i : Int)
      (x.multiple? place).map fun n =>
        Numeral.writePoint (-place).toNat (n * Nat.pow 10 place.toNat)

end Double

/-- The decimal that the shortest text of a finite double denotes. -/
def Decimal.ofFloat? (x : Float) : Option Decimal :=
  (Double.ofFloat x).text?.bind fun digits =>
    Decimal.ofText? (String.ofList (if x < 0 then '-' :: digits else digits))

end MoneyMarket
