import MoneyMarket.Market.Supply

/-! # Moving tokens

Tokens move between two accounts of a market by a transfer or by a seizure.
A transfer takes unregistered tokens first, and what it takes from the
registered ones is registered for a receiver who is a member, as far as the
cap lets it in. A seizure takes registered tokens only, and they stay
registered. Where tokens are not registered, all tokens are alike.
-/

namespace MoneyMarket

/-- A movement of tokens that is ready to be settled. -/
structure MovePlan where
  source : AccountId
  target : AccountId
  tokens : Amount
  /-- How many of the tokens counted as collateral of the source. -/
  collateralTokensRemoved : Amount
  sourceTokens : Amount
  targetTokens : Amount
  collateral : Option CollateralPlan
  deriving DecidableEq

namespace Market

/-- The change of registrations that a transfer brings. -/
def transferCollateral (m : Market) (source target : AccountId) (tokens : Amount)
    (targetIsMember : Bool) : Except MarketError (Amount × Option CollateralPlan) := do
  match m.kind.ledger? with
  | none => return (tokens, none)
  | some ledger =>
    let unregistered := (m.tokenBalance source).excess (ledger.tokensOf source)
    let removed := tokens.excess unregistered
    let plan ← ledger.release ledger.unchanged source removed
    let plan ← if targetIsMember then ledger.register plan target removed else pure plan
    return (removed, if plan.isEmpty then none else some plan)

/-- The change of registrations that a seizure brings. -/
def seizeCollateral (m : Market) (source target : AccountId) (tokens : Amount) :
    Except MarketError (Amount × Option CollateralPlan) := do
  match m.kind.ledger? with
  | none => return (tokens, none)
  | some ledger =>
    let plan ← ledger.move ledger.unchanged source target tokens
    return (tokens, if plan.isEmpty then none else some plan)

/-- Plans a movement whose change of registrations is given. -/
def planMove (m : Market) (source target : AccountId) (tokens : Amount)
    (registrations : Except MarketError (Amount × Option CollateralPlan)) :
    Except MarketError MovePlan := do
  if source = target then throw .sameAccount
  let sourceTokens ← m.tokensAfter source tokens
  let targetTokens ← (m.tokenBalance target).add tokens
  let (collateralTokensRemoved, collateral) ← registrations
  return { source, target, tokens, collateralTokensRemoved, sourceTokens, targetTokens, collateral }

/-- Plans a transfer; the market need not be fresh. -/
def planTransfer (m : Market) (source target : AccountId) (tokens : Amount)
    (targetIsMember : Bool) : Except MarketError MovePlan :=
  m.planMove source target tokens (m.transferCollateral source target tokens targetIsMember)

/-- Plans a seizure of a borrower's tokens. -/
def planSeizure (m : Market) (liquidator borrower : AccountId) (tokens : Amount)
    (now : UInt64) : Except MarketError MovePlan := do
  m.requireFresh now
  m.planMove borrower liquidator tokens (m.seizeCollateral borrower liquidator tokens)

/-- Moves the tokens and their registration. -/
def settleMove (m : Market) (p : MovePlan) : Market × List Event :=
  let m := (m.setBalance p.source p.sourceTokens).setBalance p.target p.targetTokens
  let event := Event.transfer m.id p.source p.target p.tokens
  match p.collateral with
  | some plan => (m.commitCollateral plan, event :: m.collateralEvents plan)
  | none => (m, [event])

end Market

end MoneyMarket
