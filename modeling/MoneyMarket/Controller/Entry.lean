import MoneyMarket.Controller.Gates
import MoneyMarket.Market.Registration

/-! # Entering and leaving markets

An account that enters a market offers its tokens there as collateral, and
takes them back when it leaves.
-/

namespace MoneyMarket.Operation

/-- Enters a market and registers the account's tokens there. A member has
nothing to do. -/
def enterMarket (account : AccountId) (market : MarketId) : Operation (List Event) := do
  let c ← get
  let listing ← c.listed market
  if c.isMember account market then return []
  let plan ← ControllerError.within market (listing.state.planRegister account)
  let changes ←
    match plan with
    | some plan => onMarket market fun m => m.settleRegistration plan
    | none => pure []
  modify fun c => { c with memberships := c.memberships.enter account market }
  return .marketEntered market account :: changes

/-- Enters markets one after the other, after all of them were found listed. -/
def enterMarkets (account : AccountId) (markets : List MarketId) : Operation (List Event) := do
  (← get).requireListed markets
  let events ← markets.mapM (enterMarket account)
  return events.flatten

/-- Leaves a market and takes the account's tokens there out of its
collateral. An account that owes there, or that needs the collateral, may not
leave. Who is no member has nothing to do. -/
def leaveMarket (account : AccountId) (market : MarketId) (prices : Prices) :
    Operation (List Event) := do
  let c ← get
  let listing ← c.listed market
  if !c.isMember account market then return []
  if listing.state.hasDebt account then throw (.rejected .nonzeroBorrowBalance)
  let collateral := listing.state.collateralTokens account
  let verdict ← c.redeemVerdict market account collateral prices
  verdict.demand
  let plan ← ControllerError.within market (listing.state.planUnregister account)
  let changes ←
    match plan with
    | some (plan, _) => onMarket market fun m => m.settleRegistration plan
    | none => pure []
  modify fun c => { c with memberships := c.memberships.leave account market }
  return changes ++ [.marketExited market account]

end MoneyMarket.Operation
