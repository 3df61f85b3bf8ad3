import MoneyMarket.Market

/-! # Flashloans and reserves

A flashloan is lent and repaid at once. Its fee stays in the market, and the
share given by the reserve factor becomes reserves. Reserves are also added
and taken out directly, with the cash that backs them.
-/

namespace MoneyMarket

/-- A flashloan that is ready to be settled. -/
structure FlashloanPlan where
  receiver : AccountId
  amount : Amount
  totalFee : Amount
  /-- The part of the fee that goes to the reserves. -/
  reservesFee : Amount
  cash : Amount
  totalReserves : Amount
  deriving DecidableEq

/-- The reason given for a reserve factor above one. -/
def MarketError.reserveFactorAboveOne (reserveFactor : Wad) : MarketError :=
  .invalidParameter s!"reserve factor {reserveFactor.text} above 1"

namespace Market

/-- The fee for a flashloan, without the fraction. -/
def flashFee (m : Market) (amount : Amount) : Except MarketError Amount := do
  let scaled ← amount.mul (.ofUInt64 m.flashFeeBips)
  return scaled.quotient 10000

/-- Plans a flashloan for which an amount was paid back. -/
def planFlashloan (m : Market) (receiver : AccountId) (amount repaid : Amount)
    (now : UInt64) : Except MarketError FlashloanPlan := do
  m.requireFresh now
  m.requireCash amount
  let totalFee ← m.flashFee amount
  let required ← amount.add totalFee
  if repaid < required then throw (.insufficientFlashloanRepay required repaid)
  let reservesFee ← m.reserveFactor.mulTruncate totalFee
  return {
    receiver, amount, totalFee, reservesFee
    cash := ← m.cash.add totalFee
    totalReserves := ← m.totalReserves.add reservesFee }

/-- Takes the fee of a flashloan in. -/
def settleFlashloan (m : Market) (p : FlashloanPlan) : Market × List Event :=
  ({ m with cash := p.cash, totalReserves := p.totalReserves },
    [.flashloan m.id p.receiver p.amount p.totalFee p.reservesFee])

/-- Adds cash that belongs to the reserves. -/
def addReserves (m : Market) (benefactor : AccountId) (amount : Amount) (now : UInt64) :
    Except MarketError (Market × Event) := do
  m.requireFresh now
  let cash ← m.cash.add amount
  let totalReserves ← m.totalReserves.add amount
  return ({ m with cash, totalReserves }, .reservesAdded m.id benefactor amount totalReserves)

/-- Takes cash that belongs to the reserves out of the market. -/
def reduceReserves (m : Market) (admin : AccountId) (amount : Amount) (now : UInt64) :
    Except MarketError (Market × Event) := do
  m.requireFresh now
  m.requireCash amount
  let totalReserves ← m.totalReserves.sub amount
  let cash ← m.cash.sub amount
  return ({ m with cash, totalReserves }, .reservesReduced m.id admin amount totalReserves)

/-- Changes the reserve factor, to at most one. -/
def setReserveFactor (m : Market) (reserveFactor : Wad) (now : UInt64) :
    Except MarketError (Market × Event) := do
  m.requireFresh now
  if 1 < reserveFactor then throw (.reserveFactorAboveOne reserveFactor)
  return ({ m with reserveFactor }, .newReserveFactor m.id m.reserveFactor reserveFactor)

end Market

end MoneyMarket
