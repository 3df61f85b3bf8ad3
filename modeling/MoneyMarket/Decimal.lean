import MoneyMarket.Numeral.Point

/-! # Decimals

A decimal is a sign, a magnitude of at most 96 bits, and up to 28 places
behind the point. The number of places is part of the value, and so is the
sign of a zero: `0.9`, `0.90`, `0.0` and `-0.0` are different decimals. Order
compares the numbers that they denote.
-/

namespace MoneyMarket

/-- The number `magnitude / 10 ^ scale` or its negative, written with `scale`
places. -/
@[ext]
structure Decimal where
  /-- Whether it has a minus sign. A zero has one if a negative number was
  rounded to it. -/
  negative : Bool
  magnitude : Nat
  scale : Nat
  magnitude_lt : magnitude < Nat.pow 2 96
  scale_le : scale ≤ 28
  deriving DecidableEq

namespace Decimal

/-- The decimal of a sign, a magnitude and a scale that are in range. -/
def ofParts? (negative : Bool) (magnitude scale : Nat) : Option Decimal :=
  if h : magnitude < Nat.pow 2 96 ∧ scale ≤ 28 then some ⟨negative, magnitude, scale, h.1, h.2⟩
  else none

/-- A whole number of at most 96 bits. -/
def ofInt? (n : Int) : Option Decimal := ofParts? (n < 0) n.natAbs 0

theorem toNat_lt_pow (n : UInt64) : n.toNat < Nat.pow 2 96 :=
  Nat.lt_trans n.toNat_lt (by decide)

/-- A number of tenths, written with one place. -/
def tenths (n : UInt64) : Decimal := ⟨false, n.toNat, 1, toNat_lt_pow n, by decide⟩

/-- A number of hundredths, written with two places. -/
def hundredths (n : UInt64) : Decimal := ⟨false, n.toNat, 2, toNat_lt_pow n, by decide⟩

/-- A number of millionths, written with six places. -/
def millionths (n : UInt64) : Decimal := ⟨false, n.toNat, 6, toNat_lt_pow n, by decide⟩

/-- The number of units in the last place, with its sign. -/
def coefficient (d : Decimal) : Int := if d.negative then -(d.magnitude : Int) else d.magnitude

instance : LT Decimal :=
  ⟨fun a b => a.coefficient * Nat.pow 10 b.scale < b.coefficient * Nat.pow 10 a.scale⟩

instance : DecidableLT Decimal := fun a b =>
  inferInstanceAs
    (Decidable (a.coefficient * Nat.pow 10 b.scale < b.coefficient * Nat.pow 10 a.scale))

instance : LE Decimal :=
  ⟨fun a b => a.coefficient * Nat.pow 10 b.scale ≤ b.coefficient * Nat.pow 10 a.scale⟩

instance : DecidableLE Decimal := fun a b =>
  inferInstanceAs
    (Decidable (a.coefficient * Nat.pow 10 b.scale ≤ b.coefficient * Nat.pow 10 a.scale))

instance : OfNat Decimal 0 := ⟨⟨false, 0, 0, by decide, by decide⟩⟩
instance : OfNat Decimal 1 := ⟨⟨false, 1, 0, by decide, by decide⟩⟩

/-- The same number with no zeros at the end behind the point. A zero loses its
sign. -/
def normalize (d : Decimal) : Decimal :=
  let short := Numeral.dropZeros d.scale d.magnitude
  { negative := d.negative && d.magnitude ≠ 0
    magnitude := short.2
    scale := short.1
    magnitude_lt := Nat.lt_of_le_of_lt (Numeral.dropZeros_le _ _) d.magnitude_lt
    scale_le := Nat.le_trans (Numeral.dropZeros_places_le _ _) d.scale_le }

/-- The text of a decimal, with all its places. -/
def text (d : Decimal) : String :=
  let digits := Numeral.writePoint d.scale d.magnitude
  String.ofList (if d.negative then '-' :: digits else digits)

end Decimal

end MoneyMarket
