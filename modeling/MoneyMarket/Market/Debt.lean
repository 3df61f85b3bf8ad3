import MoneyMarket.Market

/-! # Borrowing and repaying

A change of a debt first grows it to the current index and then moves it and
the total by the same amount.
-/

namespace MoneyMarket

/-- A borrow that is ready to be settled. -/
structure BorrowPlan where
  borrower : AccountId
  borrowAmount : Amount
  debt : Amount
  totalBorrows : Amount
  cash : Amount
  deriving DecidableEq

/-- A repayment that is ready to be settled. -/
structure RepayPlan where
  payer : AccountId
  borrower : AccountId
  /-- What is repaid, which is known also where everything was asked for. -/
  repayAmount : Amount
  debt : Amount
  totalBorrows : Amount
  cash : Amount
  deriving DecidableEq

namespace Market

/-- Plans to lend an amount that the market has in cash. -/
def planBorrow (m : Market) (borrower : AccountId) (borrowAmount : Amount) (now : UInt64) :
    Except MarketError BorrowPlan := do
  m.requireFresh now
  m.requireCash borrowAmount
  let owed ← m.owed borrower
  return {
    borrower, borrowAmount
    debt := ← owed.add borrowAmount
    totalBorrows := ← m.totalBorrows.add borrowAmount
    cash := ← m.cash.sub borrowAmount }

/-- Pays a borrow out and writes the debt down. -/
def settleBorrow (m : Market) (p : BorrowPlan) : Market × List Event :=
  let m := { m with cash := p.cash, totalBorrows := p.totalBorrows }
  (m.setDebt p.borrower p.debt,
    [.borrow m.id p.borrower p.borrowAmount p.debt p.totalBorrows])

/-- Plans to repay an amount of a debt; the largest amount asks for all that
is owed. Repaying more than is owed underflows. -/
def planRepay (m : Market) (payer borrower : AccountId) (amount : Amount) (now : UInt64) :
    Except MarketError RepayPlan := do
  m.requireFresh now
  let owed ← m.owed borrower
  let repayAmount := if amount = .largest then owed else amount
  return {
    payer, borrower, repayAmount
    debt := ← owed.sub repayAmount
    totalBorrows := ← m.totalBorrows.sub repayAmount
    cash := ← m.cash.add repayAmount }

/-- Takes a repayment in and writes the debt down. -/
def settleRepay (m : Market) (p : RepayPlan) : Market × List Event :=
  let m := { m with cash := p.cash, totalBorrows := p.totalBorrows }
  (m.setDebt p.borrower p.debt,
    [.repay m.id p.payer p.borrower p.repayAmount p.debt p.totalBorrows])

end Market

end MoneyMarket
