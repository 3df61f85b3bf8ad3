import MoneyMarket.Amount
import MoneyMarket.Decimal

/-! # Fixed-point numbers

A wad is a fixed-point number with eighteen decimal places: the amount of its
units of `10 ^ -18`, called its mantissa. Rates, prices, factors and indexes
are wads. Products and quotients drop what lies behind the last place.
-/

namespace MoneyMarket

/-- The number `mantissa / 10 ^ 18`. -/
@[ext]
structure Wad where
  mantissa : Amount
  deriving DecidableEq, Inhabited

namespace Wad

/-- The mantissa of one. -/
def unit : Amount := ⟨1_000_000_000_000_000_000, by decide⟩

instance : LE Wad := ⟨fun a b => a.mantissa ≤ b.mantissa⟩
instance : LT Wad := ⟨fun a b => a.mantissa < b.mantissa⟩
instance : DecidableLE Wad := fun a b => inferInstanceAs (Decidable (a.mantissa ≤ b.mantissa))
instance : DecidableLT Wad := fun a b => inferInstanceAs (Decidable (a.mantissa < b.mantissa))
instance : Ord Wad := ⟨fun a b => compare a.mantissa.toNat b.mantissa.toNat⟩
instance : Min Wad := ⟨fun a b => if a ≤ b then a else b⟩
instance : OfNat Wad 0 := ⟨⟨0⟩⟩
instance : OfNat Wad 1 := ⟨⟨unit⟩⟩

@[simp]
theorem toNat_unit : unit.toNat = 1_000_000_000_000_000_000 := rfl

theorem le_def {a b : Wad} : a ≤ b ↔ a.mantissa.toNat ≤ b.mantissa.toNat := Iff.rfl

theorem lt_def {a b : Wad} : a < b ↔ a.mantissa.toNat < b.mantissa.toNat := Iff.rfl

/-- The wad of a whole number. -/
def ofWhole (n : Amount) : Except ArithmeticError Wad := return ⟨← n.mul unit⟩

/-- The wad of a quotient of amounts. -/
def ofRatio (numerator denominator : Amount) : Except ArithmeticError Wad := do
  if denominator = 0 then throw .divideByZero
  return ⟨← (← numerator.mul unit).div denominator⟩

/-- The sum, unless it overflows. -/
def add (a b : Wad) : Except ArithmeticError Wad := return ⟨← a.mantissa.add b.mantissa⟩

/-- The difference, unless it would be negative. -/
def sub (a b : Wad) : Except ArithmeticError Wad := return ⟨← a.mantissa.sub b.mantissa⟩

/-- The product, cut behind the last place. The product of the mantissas must fit. -/
def mul (a b : Wad) : Except ArithmeticError Wad :=
  return ⟨← (← a.mantissa.mul b.mantissa).div unit⟩

/-- The quotient, cut behind the last place. The dividend must leave room for the
scale. -/
def div (a b : Wad) : Except ArithmeticError Wad := ofRatio a.mantissa b.mantissa

/-- The wad times an amount, as a wad. -/
def mulAmount (a : Wad) (n : Amount) : Except ArithmeticError Wad := return ⟨← a.mantissa.mul n⟩

/-- The wad divided by an amount, as a wad. -/
def divAmount (a : Wad) (n : Amount) : Except ArithmeticError Wad := return ⟨← a.mantissa.div n⟩

/-- The whole part. -/
def truncate (a : Wad) : Amount := a.mantissa.quotient unit.toNat

/-- The whole part of the wad times an amount. -/
def mulTruncate (a : Wad) (n : Amount) : Except ArithmeticError Amount :=
  return (← a.mulAmount n).truncate

/-- The whole part of the wad times an amount, and another amount on top. -/
def mulTruncateAdd (a : Wad) (n addend : Amount) : Except ArithmeticError Amount := do
  (← a.mulTruncate n).add addend

/-- The wad of a decimal. Places behind the eighteenth are dropped; a negative
number underflows. -/
def ofDecimal (d : Decimal) : Except ArithmeticError Wad := do
  if d.coefficient < 0 then throw .underflow
  let units ← Amount.ofNat d.magnitude
  if d.scale ≤ 18 then return ⟨← units.mul (← Amount.ofNat (Nat.pow 10 (18 - d.scale)))⟩
  else return ⟨units.quotient (Nat.pow 10 (d.scale - 18))⟩

/-- The decimal of a wad, without zeros at the end, if its mantissa has at
most 96 bits. -/
def toDecimal? (a : Wad) : Option Decimal :=
  (Decimal.ofParts? false a.mantissa.toNat 18).map Decimal.normalize

/-- The text of a wad: the whole part, and the places up to the last one that
is not zero. -/
def text (a : Wad) : String :=
  let short := Numeral.dropZeros 18 a.mantissa.toNat
  String.ofList (Numeral.writePoint short.1 short.2)

end Wad

end MoneyMarket
