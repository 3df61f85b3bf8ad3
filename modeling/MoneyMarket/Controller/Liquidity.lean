import MoneyMarket.Controller

/-! # Account liquidity

The liquidity of an account compares what it may owe with what it owes, in
the unit of the prices. Collateral counts with the collateral factor of its
market, in listed markets that the account has entered; debts count in full
and everywhere. An account on credit may owe its credit limit, whatever its
collateral. The same sums are taken for a hypothetical change of one market.
-/

namespace MoneyMarket

/-- What an account may still borrow, or what it lacks; at most one is not
zero. -/
structure Liquidity where
  surplus : Amount
  shortfall : Amount
  deriving DecidableEq

namespace Liquidity

/-- Compares what is available with what is required. -/
def ofSums (available required : Amount) : Liquidity :=
  ⟨available.excess required, required.excess available⟩

/-- Whether something is lacking. -/
def isShort (l : Liquidity) : Bool := l.shortfall ≠ 0

end Liquidity

/-- A hypothetical change of one market. -/
structure Hypothetical where
  market : MarketId
  redeemTokens : Amount := 0
  borrowAmount : Amount := 0
  /-- The collateral that the account would have after it entered the market. -/
  enteringCollateral : Option Amount := none
  deriving DecidableEq

namespace Controller

/-- The sums over the markets visited so far. -/
structure Sums where
  collateral : Amount
  required : Amount
  deriving DecidableEq

/-- The price of a market that has to have one. -/
def priceOf (prices : Prices) (market : MarketId) : Except ControllerError Wad :=
  match prices.price? market with
  | some price => .ok price
  | none => .error (.priceUnavailable market)

/-- Adds a market to the sums: first its debts, then its collateral, if it
counts. -/
def addMarket (c : Controller) (account : AccountId) (change : Option Hypothetical)
    (prices : Prices) (sums : Sums) (market : MarketId) : Except ControllerError Sums := do
  let adjusted := change.filter fun a => a.market = market
  match c.markets.get? market with
  | none =>
    if adjusted.isSome then throw (.marketNotListed market)
    throw <| .invariantViolation <|
      "account " ++ account.text ++ " is a member of unknown market " ++ market.text
  | some listing =>
    let price ← priceOf prices market
    let position ← listing.state.position account
    let owed ← price.mulTruncateAdd position.owed sums.required
    let owed ←
      match adjusted with
      | some a => price.mulTruncateAdd a.borrowAmount owed
      | none => pure owed
    let entering := adjusted.bind Hypothetical.enteringCollateral
    if c.isCreditAccount account || !listing.policy.isListed
        || !c.isMember account market && entering.isNone then
      return { sums with required := owed }
    let tokens := entering.getD position.collateralTokens
    let underlying ← listing.policy.collateralFactor.mul position.exchangeRate
    let value ← underlying.mul price
    let collateral ← value.mulTruncateAdd tokens sums.collateral
    let required ←
      match adjusted with
      | some a => value.mulTruncateAdd a.redeemTokens owed
      | none => pure owed
    return { collateral, required }

/-- The markets that bear on the liquidity of an account after a change. -/
def exposureAfter (c : Controller) (account : AccountId) (change : Option Hypothetical) :
    List MarketId :=
  match change with
  | some a => Name.insertDistinct a.market (c.exposure account)
  | none => c.exposure account

/-- The liquidity of an account after a change. -/
def liquidityAfter (c : Controller) (account : AccountId) (change : Option Hypothetical)
    (prices : Prices) : Except ControllerError Liquidity := do
  let sums ← (c.exposureAfter account change).foldlM
    (c.addMarket account change prices) ⟨0, 0⟩
  return .ofSums ((c.creditLimit? account).getD sums.collateral) sums.required

/-- The liquidity of an account. -/
def liquidity (c : Controller) (account : AccountId) (prices : Prices) :
    Except ControllerError Liquidity :=
  c.liquidityAfter account none prices

/-- The liquidity of an account as if it had redeemed tokens of a market and
borrowed from it. -/
def liquidityIf (c : Controller) (account : AccountId) (market : MarketId)
    (redeemTokens borrowAmount : Amount) (prices : Prices) :
    Except ControllerError Liquidity :=
  c.liquidityAfter account (some { market, redeemTokens, borrowAmount }) prices

end Controller

end MoneyMarket
