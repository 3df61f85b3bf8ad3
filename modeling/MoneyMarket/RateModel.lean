import MoneyMarket.Wad

/-! # Interest rate models

A rate model says what borrowers pay per second at a given utilization, the
share of the supplied underlying that is lent out. The curves are piecewise
linear: they rise from a base rate up to a kink and steeper behind it, and one
kind has a flat stretch between two kinks. Utilization above the roof of a
model counts as the roof.
-/

namespace MoneyMarket

/-- Why a rate model cannot be set up. -/
inductive RateModelError where
  | kinkAboveRoof (kink roof : Wad)
  | kinksOutOfOrder (kink1 kink2 : Wad)
  | zeroRoof
  | zeroSecondsPerYear
  | arithmetic (cause : ArithmeticError)
  deriving DecidableEq

/-- The wording of a rate model error. -/
def RateModelError.message : RateModelError → String
  | .kinkAboveRoof kink roof => s!"kink {kink.text} is above roof {roof.text}"
  | .kinksOutOfOrder kink1 kink2 => s!"kink1 {kink1.text} is above kink2 {kink2.text}"
  | .zeroRoof => "roof must be positive"
  | .zeroSecondsPerYear => "seconds per year must be positive"
  | .arithmetic cause => cause.message

instance : MonadLift (Except ArithmeticError) (Except RateModelError) :=
  ⟨Except.mapError .arithmetic⟩

/-- The share of `cash + borrows - reserves` that is lent out, zero when
nothing is. -/
def utilizationRate (cash borrows reserves : Amount) : Except ArithmeticError Wad := do
  if borrows = 0 then return 0
  Wad.ofRatio borrows (← (← cash.add borrows).sub reserves)

/-- The base rate of a curve and its two slopes. -/
structure Slopes where
  base : Wad
  multiplier : Wad
  jumpMultiplier : Wad
  deriving DecidableEq

namespace Slopes

/-- The slopes per second of slopes per year. -/
def perSecond (yearly : Slopes) (secondsPerYear : UInt64) : Except RateModelError Slopes := do
  if secondsPerYear = 0 then throw .zeroSecondsPerYear
  let seconds := Amount.ofUInt64 secondsPerYear
  return {
    base := ← yearly.base.divAmount seconds
    multiplier := ← yearly.multiplier.divAmount seconds
    jumpMultiplier := ← yearly.jumpMultiplier.divAmount seconds }

/-- The rate on the first stretch. -/
def rising (s : Slopes) (utilization : Wad) : Except ArithmeticError Wad := do
  (← utilization.mul s.multiplier).add s.base

/-- The rate on the last stretch, which starts at `kink` with the rate
`atKink`. -/
def jumping (s : Slopes) (kink atKink utilization : Wad) : Except ArithmeticError Wad := do
  let excess ← utilization.sub kink
  (← excess.mul s.jumpMultiplier).add atKink

end Slopes

/-- A curve with one kink and a steeper slope behind it. -/
structure JumpRate where
  slopes : Slopes
  kink : Wad
  roof : Wad
  deriving DecidableEq

namespace JumpRate

/-- Sets up a model whose kink is not above a positive roof. -/
def make (slopes : Slopes) (kink roof : Wad) : Except RateModelError JumpRate := do
  if roof = 0 then throw .zeroRoof
  if roof < kink then throw (.kinkAboveRoof kink roof)
  return { slopes, kink, roof }

/-- The rate at a utilization that is not above the roof. -/
def rateAt (m : JumpRate) (utilization : Wad) : Except ArithmeticError Wad := do
  if utilization ≤ m.kink then m.slopes.rising utilization
  else m.slopes.jumping m.kink (← m.slopes.rising m.kink) utilization

end JumpRate

/-- A curve that rises to `kink1`, is flat until `kink2`, and jumps behind. -/
structure TripleSlope where
  slopes : Slopes
  kink1 : Wad
  kink2 : Wad
  roof : Wad
  deriving DecidableEq

namespace TripleSlope

/-- Sets up a model whose kinks are in order and not above a positive roof. -/
def make (slopes : Slopes) (kink1 kink2 roof : Wad) : Except RateModelError TripleSlope := do
  if roof = 0 then throw .zeroRoof
  if kink2 < kink1 then throw (.kinksOutOfOrder kink1 kink2)
  if roof < kink2 then throw (.kinkAboveRoof kink2 roof)
  return { slopes, kink1, kink2, roof }

/-- The rate at a utilization that is not above the roof. -/
def rateAt (m : TripleSlope) (utilization : Wad) : Except ArithmeticError Wad := do
  if utilization ≤ m.kink1 then m.slopes.rising utilization
  else if utilization ≤ m.kink2 then m.slopes.rising m.kink1
  else m.slopes.jumping m.kink2 (← m.slopes.rising m.kink1) utilization

end TripleSlope

/-- The rate curve of a market. -/
inductive RateModel where
  | jumpRate (model : JumpRate)
  | tripleSlope (model : TripleSlope)
  deriving DecidableEq

namespace RateModel

/-- The highest utilization that the model distinguishes. -/
def roof : RateModel → Wad
  | jumpRate m => m.roof
  | tripleSlope m => m.roof

/-- The rate at a utilization that is not above the roof. -/
def rateAt : RateModel → Wad → Except ArithmeticError Wad
  | jumpRate m => m.rateAt
  | tripleSlope m => m.rateAt

/-- Utilization as far as the model distinguishes it. -/
def utilization (m : RateModel) (cash borrows reserves : Amount) : Except ArithmeticError Wad :=
  return min (← utilizationRate cash borrows reserves) m.roof

/-- What borrowers pay per second. -/
def borrowRate (m : RateModel) (cash borrows reserves : Amount) : Except ArithmeticError Wad := do
  m.rateAt (← m.utilization cash borrows reserves)

/-- What suppliers earn per second: the borrow rate on the share that is lent
out, less the share `reserveFactor` that goes to the reserves. -/
def supplyRate (m : RateModel) (cash borrows reserves : Amount) (reserveFactor : Wad) :
    Except ArithmeticError Wad := do
  let kept ← (1 : Wad).sub reserveFactor
  let toPool ← (← m.borrowRate cash borrows reserves).mul kept
  (← m.utilization cash borrows reserves).mul toPool

end RateModel

end MoneyMarket
