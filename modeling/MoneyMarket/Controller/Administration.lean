import MoneyMarket.Controller
import MoneyMarket.Market.Accrual
import MoneyMarket.Market.Registration
import MoneyMarket.Market.Reserves

/-! # Administration

The admin lists markets, sets the risk parameters and appoints guardians. The
guardians may set the caps, and may pause what only the admin may resume.
Rights are checked before anything else.
-/

namespace MoneyMarket.Operation

/-- Fails unless the caller is the admin. -/
def requireAdmin (caller : AccountId) (privilege : Privilege) : Operation Unit := do
  if caller ≠ (← get).admin then throw (.unauthorized caller privilege)

/-- Fails unless the caller is the guardian or the admin. -/
def requireAdminOr (guardian : Controller → Option AccountId) (caller : AccountId)
    (privilege : Privilege) : Operation Unit := do
  if guardian (← get) ≠ some caller then requireAdmin caller privilege

/-- The guardian may pause; only the admin may resume. -/
def requirePauseRights (caller : AccountId) (paused : Bool) (privilege : Privilege) :
    Operation Unit :=
  if paused then requireAdminOr Controller.pauseGuardian caller privilege
  else requireAdmin caller privilege

/-! ## Listing -/

/-- Lists a market, with new state if it was delisted before. -/
def listMarket (caller : AccountId) (market : Market) : Operation Event := do
  requireAdmin caller .listMarket
  let c ← get
  if c.isListed market.id then throw (.marketAlreadyListed market.id)
  set (c.setListing market.id ⟨market, { isListed := true }⟩)
  return .marketListed market.id

/-- Delists a market without tokens. Its state stays readable. -/
def delistMarket (caller : AccountId) (market : MarketId) : Operation Event := do
  requireAdmin caller .delistMarket
  let c ← get
  let listing ← c.listed market
  let supply := listing.state.totalSupply
  if supply ≠ 0 then
    throw (.invalidParameter ("market " ++ market.text ++ s!" still has supply {supply.text}"))
  onPolicy market fun policy => { policy with isListed := false }
  modify fun c => { c with memberships := c.memberships.close market }
  return .marketDelisted market

/-! ## Risk parameters -/

/-- Sets a collateral factor up to the greatest one; a positive one needs a
price. -/
def setCollateralFactor (caller : AccountId) (market : MarketId) (collateralFactor : Wad)
    (prices : Prices) : Operation Event := do
  requireAdmin caller .setCollateralFactor
  let c ← get
  let listing ← c.listed market
  if c.maxCollateralFactor < collateralFactor then
    throw <| .invalidParameter
      s!"collateral factor {collateralFactor.text} above maximum {c.maxCollateralFactor.text}"
  if collateralFactor ≠ 0 ∧ prices.price? market = none then throw (.priceUnavailable market)
  onPolicy market fun policy => { policy with collateralFactor }
  return .newCollateralFactor market listing.policy.collateralFactor collateralFactor

/-- Gives an account a credit limit; zero takes it away. -/
def setCreditLimit (caller account : AccountId) (creditLimit : Amount) : Operation Event := do
  requireAdmin caller .setCreditLimit
  modify fun c => { c with creditLimits := c.creditLimits.set account creditLimit }
  return .creditLimitChanged account creditLimit

/-- Sets the close factor, within the bounds that settings have too. -/
def setCloseFactor (caller : AccountId) (closeFactor : Wad) : Operation Event := do
  requireAdmin caller .setCloseFactor
  let min ← Wad.ofDecimal ControllerSettings.closeFactorMin
  let max ← Wad.ofDecimal ControllerSettings.closeFactorMax
  if closeFactor < min ∨ max < closeFactor then
    throw <| .invalidParameter
      s!"close factor {closeFactor.text} outside [{min.text}, {max.text}]"
  let c ← get
  set { c with closeFactor }
  return .newCloseFactor c.closeFactor closeFactor

/-- Sets the liquidation incentive, which is at least one. -/
def setLiquidationIncentive (caller : AccountId) (liquidationIncentive : Wad) :
    Operation Event := do
  requireAdmin caller .setLiquidationIncentive
  if liquidationIncentive < 1 then
    throw (.invalidParameter s!"liquidation incentive {liquidationIncentive.text} below 1")
  let c ← get
  set { c with liquidationIncentive }
  return .newLiquidationIncentive c.liquidationIncentive liquidationIncentive

/-! ## Caps -/

/-- Sets a cap of several markets, after all of them were found listed. -/
def setCaps (caps : List (MarketId × Amount)) (change : Amount → MarketPolicy → MarketPolicy)
    (event : MarketId → Amount → Event) : Operation (List Event) := do
  (← get).requireListed (caps.map Prod.fst)
  caps.mapM fun (market, cap) => do
    onPolicy market (change cap)
    return event market cap

/-- Sets supply caps, as the admin or the guardian of them. -/
def setSupplyCaps (caller : AccountId) (caps : List (MarketId × Amount)) :
    Operation (List Event) := do
  requireAdminOr Controller.supplyCapGuardian caller .setSupplyCaps
  setCaps caps (fun supplyCap policy => { policy with supplyCap }) .newSupplyCap

/-- Sets borrow caps, as the admin or the guardian of them. -/
def setBorrowCaps (caller : AccountId) (caps : List (MarketId × Amount)) :
    Operation (List Event) := do
  requireAdminOr Controller.borrowCapGuardian caller .setBorrowCaps
  setCaps caps (fun borrowCap policy => { policy with borrowCap }) .newBorrowCap

/-! ## Pauses -/

/-- Pauses or resumes an action on one market. -/
def pauseOnMarket (caller : AccountId) (market : MarketId) (action : Action) (paused : Bool)
    (change : MarketPolicy → MarketPolicy) : Operation Event := do
  requirePauseRights caller paused .pauseMarketAction
  onPolicy market change
  return .marketActionPaused market action paused

/-- Pauses or resumes supplying to one market. -/
def setMintPaused (caller : AccountId) (market : MarketId) (mintPaused : Bool) :
    Operation Event :=
  pauseOnMarket caller market .mint mintPaused fun policy => { policy with mintPaused }

/-- Pauses or resumes borrowing from one market. -/
def setBorrowPaused (caller : AccountId) (market : MarketId) (borrowPaused : Bool) :
    Operation Event :=
  pauseOnMarket caller market .borrow borrowPaused fun policy => { policy with borrowPaused }

/-- Pauses or resumes the flashloans of one market. -/
def setFlashloanPaused (caller : AccountId) (market : MarketId) (flashloanPaused : Bool) :
    Operation Event :=
  pauseOnMarket caller market .flashloan flashloanPaused fun policy =>
    { policy with flashloanPaused }

/-- Pauses or resumes transfers everywhere. -/
def setTransferPaused (caller : AccountId) (transferPaused : Bool) : Operation Event := do
  requirePauseRights caller transferPaused .pauseTransfers
  modify fun c => { c with transferPaused }
  return .actionPaused .transfer transferPaused

/-- Pauses or resumes seizing everywhere. -/
def setSeizePaused (caller : AccountId) (seizePaused : Bool) : Operation Event := do
  requirePauseRights caller seizePaused .pauseSeizing
  modify fun c => { c with seizePaused }
  return .actionPaused .seize seizePaused

/-! ## Roles -/

/-- Hands all rights of the admin over. -/
def setAdmin (caller admin : AccountId) : Operation Event := do
  requireAdmin caller .setAdmin
  let c ← get
  set { c with admin }
  return .newAdmin c.admin admin

/-- Appoints who may pause, or nobody. -/
def setPauseGuardian (caller : AccountId) (pauseGuardian : Option AccountId) :
    Operation Event := do
  requireAdmin caller .setPauseGuardian
  modify fun c => { c with pauseGuardian }
  return .newPauseGuardian pauseGuardian

/-- Appoints who may set supply caps, or nobody. -/
def setSupplyCapGuardian (caller : AccountId) (supplyCapGuardian : Option AccountId) :
    Operation Event := do
  requireAdmin caller .setSupplyCapGuardian
  modify fun c => { c with supplyCapGuardian }
  return .newSupplyCapGuardian supplyCapGuardian

/-- Appoints who may set borrow caps, or nobody. -/
def setBorrowCapGuardian (caller : AccountId) (borrowCapGuardian : Option AccountId) :
    Operation Event := do
  requireAdmin caller .setBorrowCapGuardian
  modify fun c => { c with borrowCapGuardian }
  return .newBorrowCapGuardian borrowCapGuardian

/-! ## Markets -/

/-- Changes the reserve factor of a fresh market. -/
def setReserveFactor (caller : AccountId) (market : MarketId) (reserveFactor : Wad)
    (now : UInt64) : Operation Event := do
  requireAdmin caller .setReserveFactor
  tryOnMarket market fun m => m.setReserveFactor reserveFactor now

/-- Changes the collateral cap of a market that has one. -/
def setCollateralCap (caller : AccountId) (market : MarketId) (cap : Amount) :
    Operation Unit := do
  requireAdmin caller .setCollateralCap
  tryOnMarket market fun m => return (← m.setCollateralCap cap, ())

/-- Replaces the rate model of a fresh market. -/
def setInterestRateModel (caller : AccountId) (market : MarketId) (rateModel : RateModel)
    (now : UInt64) : Operation Unit := do
  requireAdmin caller .setInterestRateModel
  tryOnMarket market fun m => return (← m.setRateModel rateModel now, ())

/-- Anyone may add to the reserves. -/
def addReserves (benefactor : AccountId) (market : MarketId) (amount : Amount) (now : UInt64) :
    Operation Event :=
  tryOnMarket market fun m => m.addReserves benefactor amount now

/-- Pays reserves of a fresh market out to the admin. -/
def reduceReserves (caller : AccountId) (market : MarketId) (amount : Amount) (now : UInt64) :
    Operation Event := do
  requireAdmin caller .reduceReserves
  tryOnMarket market fun m => m.reduceReserves caller amount now

end MoneyMarket.Operation
