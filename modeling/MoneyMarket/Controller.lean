import MoneyMarket.Controller.Settings
import MoneyMarket.Market
import MoneyMarket.Memberships
import MoneyMarket.Price.Quote

/-! # The risk controller

The controller owns all markets. It knows which accounts have entered which
markets and which accounts borrow on a credit limit instead of collateral, and
it holds the risk parameters. A market that is delisted keeps its record.
-/

namespace MoneyMarket

/-- The risk parameters of one market. A cap of zero is no cap. -/
structure MarketPolicy where
  isListed : Bool := false
  collateralFactor : Wad := 0
  supplyCap : Amount := 0
  borrowCap : Amount := 0
  mintPaused : Bool := false
  borrowPaused : Bool := false
  flashloanPaused : Bool := false
  deriving DecidableEq

/-- A market and its risk parameters. -/
structure Listing where
  state : Market
  policy : MarketPolicy
  deriving DecidableEq

/-- The controller. -/
structure Controller where
  admin : AccountId
  /-- May pause, but not resume. -/
  pauseGuardian : Option AccountId
  supplyCapGuardian : Option AccountId
  borrowCapGuardian : Option AccountId
  /-- The share of a debt that one liquidation may repay. -/
  closeFactor : Wad
  /-- What a liquidator gets for what it repays. -/
  liquidationIncentive : Wad
  maxCollateralFactor : Wad
  transferPaused : Bool
  seizePaused : Bool
  markets : Registry MarketId Listing
  memberships : Memberships
  /-- The accounts that borrow on credit. -/
  creditLimits : Balances
  deriving DecidableEq

/-- An operation on the controller. What it wrote before it failed stays
written. -/
abbrev Operation (α : Type) : Type := ExceptT ControllerError (StateM Controller) α

namespace Controller

/-- A controller without markets, under valid settings. -/
def make (admin : AccountId) (settings : ControllerSettings) :
    Except ControllerError Controller := do
  settings.validate
  return {
    admin
    pauseGuardian := none
    supplyCapGuardian := none
    borrowCapGuardian := none
    closeFactor := ← settings.closeFactorWad
    liquidationIncentive := ← settings.liquidationIncentiveWad
    maxCollateralFactor := ← settings.maxCollateralFactorWad
    transferPaused := false
    seizePaused := false
    markets := ∅
    memberships := ∅
    creditLimits := ∅ }

/-- The market under a name, listed or not. -/
def market? (c : Controller) (market : MarketId) : Option Market :=
  (c.markets.get? market).map Listing.state

/-- The risk parameters of a market, listed or not. -/
def policy? (c : Controller) (market : MarketId) : Option MarketPolicy :=
  (c.markets.get? market).map Listing.policy

/-- The record of a market, if the market is listed. -/
def listed? (c : Controller) (market : MarketId) : Option Listing :=
  (c.markets.get? market).filter fun listing => listing.policy.isListed

/-- Whether a market is known and listed. -/
def isListed (c : Controller) (market : MarketId) : Bool := (c.listed? market).isSome

/-- The record of a market that has to be listed. -/
def listed (c : Controller) (market : MarketId) : Except ControllerError Listing :=
  match c.listed? market with
  | some listing => .ok listing
  | none => .error (.marketNotListed market)

/-- Fails for the first of some markets that is not listed. -/
def requireListed (c : Controller) (markets : List MarketId) : Except ControllerError Unit :=
  markets.forM fun market => discard (c.listed market)

/-- The listed markets in their order. -/
def listedMarkets (c : Controller) : List MarketId :=
  (c.markets.entries.filter fun e => e.2.policy.isListed).map Prod.fst

/-- The markets an account has entered, in the order in which it did. -/
def marketsOf (c : Controller) (account : AccountId) : List MarketId := c.memberships.of account

/-- Whether an account has entered a market. -/
def isMember (c : Controller) (account : AccountId) (market : MarketId) : Bool :=
  (c.marketsOf account).contains market

/-- The credit limit of an account that borrows on credit. -/
def creditLimit? (c : Controller) (account : AccountId) : Option Amount :=
  c.creditLimits.get? account

/-- Whether an account borrows on credit. -/
def isCreditAccount (c : Controller) (account : AccountId) : Bool :=
  (c.creditLimit? account).isSome

/-- The markets that bear on the liquidity of an account: those it has entered
and those it owes in, once each and in their order. -/
def exposure (c : Controller) (account : AccountId) : List MarketId :=
  let owing := c.markets.entries.filter fun e => e.2.state.hasDebt account
  Name.sortDistinct (c.marketsOf account ++ owing.map Prod.fst)

/-- The controller with another record of a market. -/
def setListing (c : Controller) (market : MarketId) (listing : Listing) : Controller :=
  { c with markets := c.markets.insert market listing }

end Controller

namespace Operation

/-- Changes a listed market. -/
def onMarket {α : Type} (market : MarketId) (change : Market → Market × α) : Operation α := do
  let c ← get
  let listing ← c.listed market
  let (state, result) := change listing.state
  set (c.setListing market { listing with state })
  return result

/-- Changes a listed market, unless the market refuses. -/
def tryOnMarket {α : Type} (market : MarketId)
    (change : Market → Except MarketError (Market × α)) : Operation α := do
  let c ← get
  let listing ← c.listed market
  let (state, result) ← ControllerError.within market (change listing.state)
  set (c.setListing market { listing with state })
  return result

/-- Changes the risk parameters of a listed market. -/
def onPolicy (market : MarketId) (change : MarketPolicy → MarketPolicy) : Operation Unit := do
  let c ← get
  let listing ← c.listed market
  set (c.setListing market { listing with policy := change listing.policy })

end Operation

end MoneyMarket
