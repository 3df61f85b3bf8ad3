import MoneyMarket.Market

/-! # Supplying and redeeming

Supplied underlying is exchanged for market tokens and redeemed back at the
exchange rate. Rounding is always in favour of the market. An operation is
planned first, which checks it and computes the figures it arrives at, and
then settled on the market it was planned for.
-/

namespace MoneyMarket

/-- A supply that is ready to be settled. -/
structure MintPlan where
  minter : AccountId
  mintAmount : Amount
  mintTokens : Amount
  cash : Amount
  totalSupply : Amount
  balance : Amount
  collateral : Option CollateralPlan
  deriving DecidableEq

/-- A redemption that is ready to be settled. -/
structure RedeemPlan where
  redeemer : AccountId
  redeemTokens : Amount
  redeemAmount : Amount
  /-- How many of the redeemed tokens counted as collateral. -/
  collateralTokensRemoved : Amount
  cash : Amount
  totalSupply : Amount
  balance : Amount
  collateral : Option CollateralPlan
  deriving DecidableEq

namespace Market

/-- The registration that supplying brings: a member's new tokens are
registered as far as the cap lets them in. -/
def mintCollateral (m : Market) (minter : AccountId) (tokens : Amount) (isMember : Bool) :
    Except MarketError (Option CollateralPlan) := do
  match m.kind.ledger? with
  | some ledger => if isMember then return some (← ledger.register ledger.unchanged minter tokens)
                   else return none
  | none => return none

/-- Plans to supply underlying for as many tokens as it buys in full. -/
def planMint (m : Market) (minter : AccountId) (mintAmount : Amount) (isMember : Bool)
    (now : UInt64) : Except MarketError MintPlan := do
  m.requireFresh now
  let rate ← m.exchangeRate
  let scaled ← mintAmount.mul Wad.unit
  let mintTokens ← scaled.div rate.mantissa
  let collateral ← m.mintCollateral minter mintTokens isMember
  return {
    minter, mintAmount, mintTokens, collateral
    cash := ← m.cash.add mintAmount
    totalSupply := ← m.totalSupply.add mintTokens
    balance := ← (m.tokenBalance minter).add mintTokens }

/-- Takes the underlying in and issues the tokens. -/
def settleMint (m : Market) (p : MintPlan) : Market × List Event :=
  let m := { m with cash := p.cash, totalSupply := p.totalSupply }
  let m := m.setBalance p.minter p.balance
  let event := Event.mint m.id p.minter p.mintAmount p.mintTokens
  match p.collateral with
  | some plan => (m.commitCollateral plan, event :: m.collateralEvents plan)
  | none => (m, [event])

/-- How many of some tokens that leave an account come out of its collateral,
and the plan for that. Where tokens are registered, unregistered ones go
first. -/
def releaseCollateral (m : Market) (account : AccountId) (tokens : Amount) :
    Except MarketError (Amount × Option CollateralPlan) := do
  match m.kind.ledger? with
  | none => return (tokens, none)
  | some ledger =>
    let unregistered := (m.tokenBalance account).excess (ledger.tokensOf account)
    let removed := tokens.excess unregistered
    let plan ← ledger.release ledger.unchanged account removed
    return (removed, if plan.isEmpty then none else some plan)

/-- Plans a redemption of tokens for an amount of underlying. -/
def planRedemption (m : Market) (redeemer : AccountId) (redeemTokens redeemAmount : Amount) :
    Except MarketError RedeemPlan := do
  m.requireCash redeemAmount
  let balance ← m.tokensAfter redeemer redeemTokens
  let (collateralTokensRemoved, collateral) ← m.releaseCollateral redeemer redeemTokens
  return {
    redeemer, redeemTokens, redeemAmount, collateralTokensRemoved, balance, collateral
    cash := ← m.cash.sub redeemAmount
    totalSupply := ← m.totalSupply.sub redeemTokens }

/-- Plans to redeem a number of tokens. -/
def planRedeem (m : Market) (redeemer : AccountId) (redeemTokens : Amount) (now : UInt64) :
    Except MarketError RedeemPlan := do
  m.requireFresh now
  m.planRedemption redeemer redeemTokens (← m.underlyingOf redeemTokens)

/-- Plans to redeem an amount of underlying, for the least number of tokens
that is worth it. -/
def planRedeemUnderlying (m : Market) (redeemer : AccountId) (redeemAmount : Amount)
    (now : UInt64) : Except MarketError RedeemPlan := do
  m.requireFresh now
  let rate ← m.exchangeRate
  let scaled ← redeemAmount.mul Wad.unit
  let full ← scaled.div rate.mantissa
  let redeemTokens ←
    if scaled.toNat % rate.mantissa.toNat = 0 then (pure full : Except ArithmeticError Amount)
    else full.add 1
  m.planRedemption redeemer redeemTokens redeemAmount

/-- Burns the tokens and pays the underlying out. -/
def settleRedeem (m : Market) (p : RedeemPlan) : Market × List Event :=
  let m := { m with cash := p.cash, totalSupply := p.totalSupply }
  let m := m.setBalance p.redeemer p.balance
  let event := Event.redeem m.id p.redeemer p.redeemAmount p.redeemTokens
  match p.collateral with
  | some plan => (m.commitCollateral plan, event :: m.collateralEvents plan)
  | none => (m, [event])

end Market

end MoneyMarket
