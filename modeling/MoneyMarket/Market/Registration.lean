import MoneyMarket.Market

/-! # Registering collateral

An account registers all its tokens, as far as the cap lets them in, and
unregisters all of them. Markets that register nothing have nothing to do.
-/

namespace MoneyMarket.Market

/-- The plan that registers the unregistered tokens of an account, unless it
changes nothing. -/
def planRegister (m : Market) (account : AccountId) :
    Except MarketError (Option CollateralPlan) := do
  match m.kind.ledger? with
  | none => return none
  | some ledger =>
    let unregistered := (m.tokenBalance account).excess (ledger.tokensOf account)
    let plan ← ledger.register ledger.unchanged account unregistered
    return if plan.isEmpty then none else some plan

/-- The plan that unregisters the tokens of an account, with their number,
unless there are none. -/
def planUnregister (m : Market) (account : AccountId) :
    Except MarketError (Option (CollateralPlan × Amount)) := do
  match m.kind.ledger? with
  | none => return none
  | some ledger =>
    let registered := ledger.tokensOf account
    if registered = 0 then return none
    return some (← ledger.release ledger.unchanged account registered, registered)

/-- Commits a plan for registrations. -/
def settleRegistration (m : Market) (plan : CollateralPlan) : Market × List Event :=
  (m.commitCollateral plan, m.collateralEvents plan)

/-- Changes the collateral cap. Tokens above a lower cap stay registered. -/
def setCollateralCap (m : Market) (cap : Amount) : Except MarketError Market :=
  match m.kind with
  | .collateralCap ledger => .ok { m with kind := .collateralCap { ledger with cap } }
  | _ => .error (.invalidParameter ("market " ++ m.id.text ++ " has no collateral cap"))

end MoneyMarket.Market
