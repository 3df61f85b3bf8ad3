import MoneyMarket.Controller.Liquidity

/-! # Gates

A gate answers whether an operation may go on, before anything is changed.
-/

namespace MoneyMarket.Controller

/-- The refusal of a change that takes a total above its cap. -/
def capRejection? (kind : CapKind) (cap current delta : Amount) :
    Except ControllerError (Option Rejection) := do
  if cap = 0 then return none
  let newTotal ← current.add delta
  return if cap < newTotal then some (.capExceeded kind cap newTotal) else none

/-- Refuses where the liquidity falls short. -/
def solvencyVerdict (l : Liquidity) : Verdict :=
  if l.isShort then .reject (.insufficientLiquidity l.shortfall) else .allow

/-- The supply cap bounds what belongs to the suppliers. -/
def mintVerdict (c : Controller) (market : MarketId) (mintAmount : Amount) :
    Except ControllerError Verdict := do
  match c.listed? market with
  | none => return .reject (.marketNotListed market)
  | some listing =>
    if listing.policy.mintPaused then return .reject .mintPaused
    let supplied ← listing.state.supplied
    match ← capRejection? .supply listing.policy.supplyCap supplied mintAmount with
    | some rejection => return .reject rejection
    | none => return .allow

/-- Taking tokens out of an account's collateral must leave it solvent. Tokens
that are no collateral may always go. -/
def redeemVerdict (c : Controller) (market : MarketId) (redeemer : AccountId)
    (collateralTokens : Amount) (prices : Prices) : Except ControllerError Verdict := do
  if !c.isListed market then return .reject (.marketNotListed market)
  if !c.isMember redeemer market || collateralTokens = 0 then return .allow
  return solvencyVerdict (← c.liquidityIf redeemer market collateralTokens 0 prices)

/-- A borrow must leave the account solvent and the total below its cap.
`enteringCollateral` is what the account would register if the borrow also
enters the market. -/
def borrowVerdict (c : Controller) (market : MarketId) (borrower : AccountId)
    (borrowAmount : Amount) (enteringCollateral : Option Amount) (prices : Prices) :
    Except ControllerError Verdict := do
  match c.listed? market with
  | none => return .reject (.marketNotListed market)
  | some listing =>
    if listing.policy.borrowPaused then return .reject .borrowPaused
    let _ ← priceOf prices market
    let total := listing.state.totalBorrows
    match ← capRejection? .borrow listing.policy.borrowCap total borrowAmount with
    | some rejection => return .reject rejection
    | none =>
      let change : Hypothetical := { market, borrowAmount, enteringCollateral }
      return solvencyVerdict (← c.liquidityAfter borrower (some change) prices)

/-- A debt may be repaid in any listed market. -/
def repayVerdict (c : Controller) (market : MarketId) : Verdict :=
  if c.isListed market then .allow else .reject (.marketNotListed market)

/-- A transfer is like redeeming the collateral that it takes. -/
def transferVerdict (c : Controller) (market : MarketId) (source : AccountId)
    (collateralTokens : Amount) (prices : Prices) : Except ControllerError Verdict :=
  if c.transferPaused then .ok (.reject .transferPaused)
  else c.redeemVerdict market source collateralTokens prices

/-- Collateral may be seized unless seizing is paused, and between listed markets only. -/
def seizeVerdict (c : Controller) (marketCollateral marketBorrowed : MarketId) : Verdict :=
  if c.seizePaused then .reject .seizePaused
  else if !c.isListed marketCollateral then .reject (.marketNotListed marketCollateral)
  else if !c.isListed marketBorrowed then .reject (.marketNotListed marketBorrowed)
  else .allow

/-- A flashloan is bounded by the cash of the market. -/
def flashloanVerdict (c : Controller) (market : MarketId) (amount : Amount) : Verdict :=
  match c.listed? market with
  | none => .reject (.marketNotListed market)
  | some listing =>
    if listing.policy.flashloanPaused then .reject .flashloanPaused
    else if listing.state.cash < amount then
      .reject (.insufficientCash listing.state.cash amount)
    else .allow

/-- A liquidation needs a borrower in shortfall who does not borrow on credit,
and repays at most the share of the debt that the close factor gives. -/
def liquidationVerdict (c : Controller) (marketBorrowed marketCollateral : MarketId)
    (borrower : AccountId) (repayAmount : Amount) (prices : Prices) :
    Except ControllerError Verdict := do
  match c.listed? marketBorrowed with
  | none => return .reject (.marketNotListed marketBorrowed)
  | some borrowed =>
    if !c.isListed marketCollateral then return .reject (.marketNotListed marketCollateral)
    if c.isCreditAccount borrower then return .reject .creditAccountNotLiquidatable
    let liquidity ← c.liquidity borrower prices
    if !liquidity.isShort then return .reject .insufficientShortfall
    let owed ← borrowed.state.owed borrower
    let maxClose ← c.closeFactor.mulTruncate owed
    if maxClose < repayAmount then return .reject (.tooMuchRepay repayAmount maxClose)
    return .allow

end MoneyMarket.Controller
