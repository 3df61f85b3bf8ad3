import MoneyMarket.Balances
import MoneyMarket.Market.Error

/-! # Registered collateral

On a market with a collateral cap only registered tokens count as collateral.
Registration stops at the cap, where a cap of zero is no cap; moving registered
tokens between accounts does not look at the cap. Changes are planned first,
against the ledger and the changes already planned, and committed together.
-/

namespace MoneyMarket

/-- The registered tokens of a market. -/
structure CollateralLedger where
  cap : Amount
  total : Amount
  tokens : Balances
  deriving DecidableEq

/-- The new registrations of some accounts, and the new total. -/
structure CollateralPlan where
  total : Amount
  accounts : Balances
  deriving DecidableEq

/-- Whether no account changes. -/
def CollateralPlan.isEmpty (p : CollateralPlan) : Bool := p.accounts.isEmpty

namespace CollateralLedger

/-- A ledger with nothing registered. -/
def empty (cap : Amount) : CollateralLedger := ⟨cap, 0, ∅⟩

/-- The registered tokens of an account. -/
def tokensOf (l : CollateralLedger) (account : AccountId) : Amount := l.tokens.of account

/-- The plan that changes nothing. -/
def unchanged (l : CollateralLedger) : CollateralPlan := ⟨l.total, ∅⟩

/-- The registered tokens of an account according to a plan. -/
def planned (l : CollateralLedger) (p : CollateralPlan) (account : AccountId) : Amount :=
  p.accounts.getD account (l.tokensOf account)

/-- How many more tokens the cap lets in. -/
def room (l : CollateralLedger) (p : CollateralPlan) : Amount :=
  if l.cap = 0 then .largest else l.cap.excess p.total

/-- Registers as many of the tokens as the cap lets in. -/
def register (l : CollateralLedger) (p : CollateralPlan) (account : AccountId) (amount : Amount) :
    Except MarketError CollateralPlan := do
  let registered := min amount (l.room p)
  if registered = 0 then return p
  let tokens ← (l.planned p account).add registered
  return { total := ← p.total.add registered, accounts := p.accounts.insert account tokens }

/-- Takes tokens out of the registration. -/
def release (l : CollateralLedger) (p : CollateralPlan) (account : AccountId) (amount : Amount) :
    Except MarketError CollateralPlan := do
  if amount = 0 then return p
  let current := l.planned p account
  if current < amount then throw (.insufficientTokens account current amount)
  let tokens ← current.sub amount
  return { total := ← p.total.sub amount, accounts := p.accounts.insert account tokens }

/-- Moves registered tokens from one account to another. -/
def move (l : CollateralLedger) (p : CollateralPlan) (source target : AccountId)
    (amount : Amount) : Except MarketError CollateralPlan := do
  let p ← l.release p source amount
  let tokens ← (l.planned p target).add amount
  return { total := ← p.total.add amount, accounts := p.accounts.insert target tokens }

/-- Commits a plan. -/
def commit (l : CollateralLedger) (p : CollateralPlan) : CollateralLedger :=
  { l with
    total := p.total
    tokens := p.accounts.entries.foldl (fun tokens e => tokens.set e.1 e.2) l.tokens }

end CollateralLedger

end MoneyMarket
