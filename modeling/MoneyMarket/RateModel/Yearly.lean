import MoneyMarket.RateModel

/-! # Yearly rate models

A rate model is described by decimal rates per year, and turned once into a
model with rates per second.
-/

namespace MoneyMarket

/-- The base rate of a curve and its two slopes, per year. -/
structure YearlyRates where
  base : Decimal
  multiplier : Decimal
  jumpMultiplier : Decimal
  deriving DecidableEq

/-- The rates as wads; the first one that is negative fails. -/
def YearlyRates.toSlopes (r : YearlyRates) : Except ArithmeticError Slopes :=
  return {
    base := ← Wad.ofDecimal r.base
    multiplier := ← Wad.ofDecimal r.multiplier
    jumpMultiplier := ← Wad.ofDecimal r.jumpMultiplier }

/-- A rate model described by rates per year. -/
inductive YearlyRateModel where
  | jumpRate (rates : YearlyRates) (kink roof : Decimal) (secondsPerYear : UInt64)
  | tripleSlope (rates : YearlyRates) (kink1 kink2 roof : Decimal) (secondsPerYear : UInt64)
  deriving DecidableEq

namespace YearlyRateModel

/-- The seconds of 365 days. -/
def defaultSecondsPerYear : UInt64 := 31536000

/-- Sets up the described model. A negative decimal is reported before a year of
no seconds, and that before kinks that do not fit. -/
def toRateModel : YearlyRateModel → Except RateModelError RateModel
  | jumpRate rates kink roof secondsPerYear => do
    let yearly ← rates.toSlopes
    let kink ← Wad.ofDecimal kink
    let roof ← Wad.ofDecimal roof
    return .jumpRate (← JumpRate.make (← yearly.perSecond secondsPerYear) kink roof)
  | tripleSlope rates kink1 kink2 roof secondsPerYear => do
    let yearly ← rates.toSlopes
    let kink1 ← Wad.ofDecimal kink1
    let kink2 ← Wad.ofDecimal kink2
    let roof ← Wad.ofDecimal roof
    return .tripleSlope (← TripleSlope.make (← yearly.perSecond secondsPerYear) kink1 kink2 roof)

end YearlyRateModel

end MoneyMarket
