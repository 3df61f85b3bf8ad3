import MoneyMarket.Controller.Entry
import MoneyMarket.Market.Accrual
import MoneyMarket.Market.Debt
import MoneyMarket.Market.Movement
import MoneyMarket.Market.Reserves

/-! # Dealings of the users

What users do with the markets. Nothing here books interest on its own: a
market has to be brought up to the time of a dealing before it. A dealing is
planned on its market, passes its gate, and is only then settled.
-/

namespace MoneyMarket.Operation

/-- Brings a listed market up to a time. -/
def accrue (market : MarketId) (now : UInt64) : Operation (Option Event) :=
  tryOnMarket market fun m => m.accrue now

/-- Brings all listed markets up to a time, one after the other; the first one
that fails ends it. -/
def accrueAll (now : UInt64) : Operation (List Event) := do
  let events ← (← get).listedMarkets.mapM fun market => accrue market now
  return events.filterMap id

/-- A plan for a listed market. -/
def planOn {α : Type} (market : MarketId) (plan : Market → Except MarketError α) :
    Operation α := do
  let listing ← (← get).listed market
  ControllerError.within market (plan listing.state)

/-- Goes on only if a gate lets it. -/
def passGate (gate : Controller → Except ControllerError Verdict) : Operation Unit := do
  let verdict ← gate (← get)
  verdict.demand

/-- Supplies underlying for market tokens. -/
def mint (minter : AccountId) (market : MarketId) (mintAmount : Amount) (now : UInt64) :
    Operation (List Event) := do
  let isMember := (← get).isMember minter market
  let plan ← planOn market fun m => m.planMint minter mintAmount isMember now
  passGate fun c => c.mintVerdict market mintAmount
  onMarket market fun m => m.settleMint plan

/-- Redeems a number of market tokens. -/
def redeem (redeemer : AccountId) (market : MarketId) (redeemTokens : Amount) (now : UInt64)
    (prices : Prices) : Operation (List Event) := do
  let plan ← planOn market fun m => m.planRedeem redeemer redeemTokens now
  passGate fun c => c.redeemVerdict market redeemer plan.collateralTokensRemoved prices
  onMarket market fun m => m.settleRedeem plan

/-- Redeems market tokens for an amount of underlying. -/
def redeemUnderlying (redeemer : AccountId) (market : MarketId) (redeemAmount : Amount)
    (now : UInt64) (prices : Prices) : Operation (List Event) := do
  let plan ← planOn market fun m => m.planRedeemUnderlying redeemer redeemAmount now
  passGate fun c => c.redeemVerdict market redeemer plan.collateralTokensRemoved prices
  onMarket market fun m => m.settleRedeem plan

/-- The collateral that an account would have in a market after it entered. -/
def collateralOnEntry (market : MarketId) (account : AccountId) : Operation Amount := do
  planOn market fun m => do
    let plan ← m.planRegister account
    let registered := plan.bind fun p => p.accounts.get? account
    return registered.getD (m.collateralTokens account)

/-- Borrows, and enters the market first if the borrower is no member. -/
def borrow (borrower : AccountId) (market : MarketId) (borrowAmount : Amount) (now : UInt64)
    (prices : Prices) : Operation (List Event) := do
  let plan ← planOn market fun m => m.planBorrow borrower borrowAmount now
  let entering ←
    if (← get).isMember borrower market then pure none
    else some <$> collateralOnEntry market borrower
  passGate fun c => c.borrowVerdict market borrower borrowAmount entering prices
  let entered ← if entering.isSome then enterMarket borrower market else pure []
  let events ← onMarket market fun m => m.settleBorrow plan
  return entered ++ events

/-- Repays a debt of any account; the largest amount repays all of it. -/
def repay (payer borrower : AccountId) (market : MarketId) (repayAmount : Amount)
    (now : UInt64) : Operation (List Event) := do
  passGate fun c => .ok (c.repayVerdict market)
  let plan ← planOn market fun m => m.planRepay payer borrower repayAmount now
  onMarket market fun m => m.settleRepay plan

/-- Moves market tokens to another account. The market need not be fresh. -/
def transfer (source target : AccountId) (market : MarketId) (tokens : Amount)
    (prices : Prices) : Operation (List Event) := do
  let isMember := (← get).isMember target market
  let plan ← planOn market fun m => m.planTransfer source target tokens isMember
  passGate fun c => c.transferVerdict market source plan.collateralTokensRemoved prices
  onMarket market fun m => m.settleMove plan

/-- Settles a flashloan for which an amount was paid back. -/
def flashloan (receiver : AccountId) (market : MarketId) (amount repaid : Amount)
    (now : UInt64) : Operation (List Event) := do
  passGate fun c => .ok (c.flashloanVerdict market amount)
  let plan ← planOn market fun m => m.planFlashloan receiver amount repaid now
  onMarket market fun m => m.settleFlashloan plan

end MoneyMarket.Operation
