import MoneyMarket.Controller.Dealings

/-! # Liquidation

A liquidator repays part of the debt of an account in shortfall and takes
collateral of it, worth what was repaid and an incentive on top.
-/

namespace MoneyMarket

/-- What a liquidation came to. -/
structure Liquidation where
  repayAmount : Amount
  seizeTokens : Amount
  events : List Event
  deriving DecidableEq

/-- The number of collateral tokens for a repayment: the repaid amount times
the incentive and the price of what was repaid, over the price of what a
collateral token is worth. -/
def Controller.seizeTokens (c : Controller) (marketBorrowed marketCollateral : MarketId)
    (repayAmount : Amount) (prices : Prices) : Except ControllerError Amount := do
  let priceBorrowed ← priceOf prices marketBorrowed
  let priceCollateral ← priceOf prices marketCollateral
  match c.market? marketCollateral with
  | none => throw (.marketNotListed marketCollateral)
  | some collateral =>
    let rate ← collateral.exchangeRate
    let numerator ← c.liquidationIncentive.mul priceBorrowed
    let denominator ← priceCollateral.mul rate
    let ratio ← numerator.div denominator
    ratio.mulTruncate repayAmount

namespace Operation

/-- Fails unless a listed market is fresh. -/
def requireFresh (market : MarketId) (now : UInt64) : Operation Unit := do
  let listing ← (← get).listed market
  if !listing.state.isFresh now then
    throw (.marketNotFresh market listing.state.accrualTimestamp now)

/-- Liquidates part of a debt. All is checked and planned before the debt and
the collateral change. -/
def liquidate (liquidator borrower : AccountId) (marketBorrowed marketCollateral : MarketId)
    (repayAmount : Amount) (now : UInt64) (prices : Prices) :
    Operation Liquidation := do
  if liquidator = borrower then throw .sameAccount
  if repayAmount = 0 ∨ repayAmount = .largest then throw .invalidCloseAmount
  requireFresh marketBorrowed now
  requireFresh marketCollateral now
  passGate fun c => c.liquidationVerdict marketBorrowed marketCollateral borrower repayAmount prices
  passGate fun c => .ok (c.repayVerdict marketBorrowed)
  let repayment ← planOn marketBorrowed fun m =>
    m.planRepay liquidator borrower repayAmount now
  let c ← get
  let seizeTokens ←
    c.seizeTokens marketBorrowed marketCollateral repayment.repayAmount prices
  let collateral ← c.listed marketCollateral
  let balance := collateral.state.collateralTokens borrower
  if balance < seizeTokens then throw (.rejected (.seizeTooMuch seizeTokens balance))
  passGate fun c => .ok (c.seizeVerdict marketCollateral marketBorrowed)
  let seizure ← planOn marketCollateral fun m =>
    m.planSeizure liquidator borrower seizeTokens now
  let repaid ← onMarket marketBorrowed fun m => m.settleRepay repayment
  let seized ← onMarket marketCollateral fun m => m.settleMove seizure
  let event := Event.liquidation liquidator borrower marketBorrowed repayment.repayAmount
    marketCollateral seizeTokens
  return {
    repayAmount := repayment.repayAmount
    seizeTokens
    events := repaid ++ seized ++ [event] }

end Operation

end MoneyMarket
