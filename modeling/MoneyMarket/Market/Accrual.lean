import MoneyMarket.Market

/-! # Accrual of interest

Booking interest brings a market up to a time: borrowers owe the borrow rate
times the seconds since the last accrual on what they owed, a share of that
goes to the reserves, and the index grows by the same factor. All figures are
computed before any is booked. A rate above the ceiling of the market is not
booked, whatever the time that has passed.
-/

namespace MoneyMarket.Market

/-- The figures after an accrual. -/
structure Accrual where
  interestAccumulated : Amount
  borrowIndex : Wad
  totalBorrows : Amount
  totalReserves : Amount
  deriving DecidableEq

/-- The figures of the market at a later time. -/
def accrualAt (m : Market) (now : UInt64) : Except MarketError Accrual := do
  if now < m.accrualTimestamp then throw (.timestampRegression m.accrualTimestamp now)
  let rate ← m.borrowRate
  if m.borrowRateMax < rate then throw (.excessiveInterestRate rate m.borrowRateMax)
  let factor ← rate.mulAmount (.ofUInt64 (now - m.accrualTimestamp))
  let interestAccumulated ← factor.mulTruncate m.totalBorrows
  let totalBorrows ← m.totalBorrows.add interestAccumulated
  let totalReserves ← m.reserveFactor.mulTruncateAdd interestAccumulated m.totalReserves
  let growth ← factor.mul m.borrowIndex
  let borrowIndex ← m.borrowIndex.add growth
  return { interestAccumulated, borrowIndex, totalBorrows, totalReserves }

/-- Books an accrual. -/
def book (m : Market) (now : UInt64) (a : Accrual) : Market :=
  { m with
    accrualTimestamp := now
    borrowIndex := a.borrowIndex
    totalBorrows := a.totalBorrows
    totalReserves := a.totalReserves }

/-- Brings the market up to a time. At the time of the last accrual there is
nothing to do and no event. -/
def accrue (m : Market) (now : UInt64) : Except MarketError (Market × Option Event) := do
  if now = m.accrualTimestamp then return (m, none)
  let a ← m.accrualAt now
  let event := Event.interestAccrued m.id m.cash a.interestAccumulated a.borrowIndex a.totalBorrows
  return (m.book now a, some event)

/-- Replaces the rate model of a fresh market. -/
def setRateModel (m : Market) (rateModel : RateModel) (now : UInt64) :
    Except MarketError Market := do
  m.requireFresh now
  return { m with rateModel }

end MoneyMarket.Market
