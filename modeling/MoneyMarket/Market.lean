import MoneyMarket.Event
import MoneyMarket.Market.Collateral

/-! # Markets

A market pools one underlying asset. Suppliers hold market tokens, which are
worth more underlying as borrowers pay interest; borrowers owe a principal
that grows with the borrow index. All figures are as of the last accrual, and
a market is fresh at the time of its last accrual only.
-/

namespace MoneyMarket

/-- The versions a market comes in. -/
inductive MarketVersion where
  /-- All tokens of a member count as collateral. -/
  | vanilla
  /-- Only registered tokens count, up to a cap. -/
  | collateralCap
  /-- A market of the native asset, with the rules of a vanilla one. -/
  | wrappedNative
  deriving DecidableEq

instance : Vocabulary MarketVersion where
  all := [.vanilla, .collateralCap, .wrappedNative]
  word
    | .vanilla => "vanilla"
    | .collateralCap => "collateral_cap"
    | .wrappedNative => "wrapped_native"

/-- The version of a market, with the state that only this version has. -/
inductive MarketKind where
  | vanilla
  | collateralCap (ledger : CollateralLedger)
  | wrappedNative
  deriving DecidableEq

namespace MarketKind

def version : MarketKind → MarketVersion
  | vanilla => .vanilla
  | collateralCap _ => .collateralCap
  | wrappedNative => .wrappedNative

/-- The registered collateral, for versions that have it. -/
def ledger? : MarketKind → Option CollateralLedger
  | collateralCap ledger => some ledger
  | _ => none

end MarketKind

/-- What an account owed when its debt last changed, and the index then. -/
structure Debt where
  principal : Amount
  interestIndex : Wad
  deriving DecidableEq

/-- The figures of one account in one market that decide on its liquidity. -/
structure Position where
  tokenBalance : Amount
  /-- The tokens that count as collateral of a member. -/
  collateralTokens : Amount
  owed : Amount
  exchangeRate : Wad
  deriving DecidableEq

/-- A market. -/
structure Market where
  id : MarketId
  kind : MarketKind
  rateModel : RateModel
  /-- The share of the interest that goes to the reserves. -/
  reserveFactor : Wad
  /-- The exchange rate while there are no tokens. -/
  initialExchangeRate : Wad
  /-- The highest borrow rate that is booked. -/
  borrowRateMax : Wad
  /-- The flashloan fee in hundredths of a percent. -/
  flashFeeBips : UInt64
  /-- The underlying that lies in the market. -/
  cash : Amount
  totalBorrows : Amount
  /-- The part of cash and borrows that belongs to no supplier. -/
  totalReserves : Amount
  /-- The number of market tokens. -/
  totalSupply : Amount
  /-- What a debt of one at the beginning has grown to. -/
  borrowIndex : Wad
  accrualTimestamp : UInt64
  balances : Balances
  debts : Registry AccountId Debt
  deriving DecidableEq

namespace Market

def version (m : Market) : MarketVersion := m.kind.version

/-- Whether interest is booked up to a time. -/
def isFresh (m : Market) (now : UInt64) : Bool := m.accrualTimestamp = now

/-- Fails unless the market is fresh. -/
def requireFresh (m : Market) (now : UInt64) : Except MarketError Unit :=
  if m.accrualTimestamp = now then .ok () else .error (.notFresh m.accrualTimestamp now)

/-- Fails unless there is enough cash. -/
def requireCash (m : Market) (required : Amount) : Except MarketError Unit :=
  if m.cash < required then .error (.insufficientCash m.cash required) else .ok ()

/-- The collateral cap, on markets that have one. -/
def collateralCap? (m : Market) : Option Amount := m.kind.ledger?.map CollateralLedger.cap

/-- The number of registered tokens, on markets that register them. -/
def totalCollateralTokens? (m : Market) : Option Amount :=
  m.kind.ledger?.map CollateralLedger.total

/-- The market tokens of an account. -/
def tokenBalance (m : Market) (account : AccountId) : Amount := m.balances.of account

/-- The tokens of an account that count as collateral of a member. -/
def collateralTokens (m : Market) (account : AccountId) : Amount :=
  match m.kind with
  | .collateralCap ledger => ledger.tokensOf account
  | _ => m.tokenBalance account

/-- The debt of an account as of its last change; no debt has zeros. -/
def debt (m : Market) (account : AccountId) : Debt :=
  m.debts.getD account ⟨0, 0⟩

/-- Whether an account owes anything. -/
def hasDebt (m : Market) (account : AccountId) : Bool :=
  (m.debt account).principal ≠ 0

/-- The debt of an account: the principal times the growth of the index since,
without the fraction. -/
def owed (m : Market) (account : AccountId) : Except ArithmeticError Amount := do
  let debt := m.debt account
  if debt.principal = 0 then return 0
  (← debt.principal.mul m.borrowIndex.mantissa).div debt.interestIndex.mantissa

/-- The underlying that belongs to the suppliers. -/
def supplied (m : Market) : Except ArithmeticError Amount := do
  (← m.cash.add m.totalBorrows).sub m.totalReserves

/-- The underlying that one market token is worth. -/
def exchangeRate (m : Market) : Except ArithmeticError Wad := do
  if m.totalSupply = 0 then return m.initialExchangeRate
  Wad.ofRatio (← m.supplied) m.totalSupply

/-- The underlying that a number of tokens is worth, without the fraction. -/
def underlyingOf (m : Market) (tokens : Amount) : Except MarketError Amount := do
  let rate ← m.exchangeRate
  rate.mulTruncate tokens

/-- The figures of an account that decide on its liquidity. -/
def position (m : Market) (account : AccountId) :
    Except ArithmeticError Position := do
  let owed ← m.owed account
  let exchangeRate ← m.exchangeRate
  return {
    tokenBalance := m.tokenBalance account
    collateralTokens := m.collateralTokens account
    owed
    exchangeRate }

/-- What borrowers pay per second at the figures of the market. -/
def borrowRate (m : Market) : Except ArithmeticError Wad :=
  m.rateModel.borrowRate m.cash m.totalBorrows m.totalReserves

/-- What suppliers earn per second at the figures of the market. -/
def supplyRate (m : Market) : Except ArithmeticError Wad :=
  m.rateModel.supplyRate m.cash m.totalBorrows m.totalReserves m.reserveFactor

/-- What is left of an account's tokens when some are taken away. -/
def tokensAfter (m : Market) (account : AccountId) (taken : Amount) :
    Except MarketError Amount := do
  let balance := m.tokenBalance account
  if balance < taken then throw (.insufficientTokens account balance taken)
  balance.sub taken

/-- The market with another token balance of one account. -/
def setBalance (m : Market) (account : AccountId) (tokens : Amount) : Market :=
  { m with balances := m.balances.set account tokens }

/-- The market with another debt of one account, as of the current index. -/
def setDebt (m : Market) (account : AccountId) (principal : Amount) : Market :=
  { m with
    debts :=
      if principal = 0 then m.debts.erase account
      else m.debts.insert account ⟨principal, m.borrowIndex⟩ }

/-- The market with a collateral plan committed, if it registers collateral. -/
def commitCollateral (m : Market) (plan : CollateralPlan) : Market :=
  match m.kind with
  | .collateralCap ledger => { m with kind := .collateralCap (ledger.commit plan) }
  | _ => m

/-- The events of a collateral plan, in the order of the accounts. -/
def collateralEvents (m : Market) (plan : CollateralPlan) : List Event :=
  plan.accounts.entries.map fun e => .collateralChanged m.id e.1 e.2

end Market

end MoneyMarket
