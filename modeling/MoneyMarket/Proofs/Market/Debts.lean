import MoneyMarket.Proofs.Market.Run

/-! # Debts after a call

Most calls leave all debts alone. A borrow or a repayment writes one debt
down, and an accrual moves the index that all debts grow with. Only a borrow
makes a debtor of an account that was none.
-/

namespace MoneyMarket

open Market

variable {m m' : Market} {account : AccountId} {call : Call}

/-- What a call does to debts: most calls leave them alone. -/
inductive Market.DebtChange (m : Market) : Call → Market → Prop
  | untouched {call : Call} {m' : Market} (hindex : m'.borrowIndex = m.borrowIndex)
      (hborrows : m'.totalBorrows = m.totalBorrows) (hdebts : m'.debts = m.debts) :
      DebtChange m call m'
  | accrued {a : Accrual} {now : UInt64} (ha : a.Fits m) :
      DebtChange m (.accrue now) (m.book now a)
  | borrowed {p : BorrowPlan} {borrower : AccountId} {amount : Amount} {now : UInt64}
      (hp : p.Fits m borrower amount) :
      DebtChange m (.borrow borrower amount now) (m.settleBorrow p).1
  | repaid {p : RepayPlan} {payer borrower : AccountId} {amount : Amount} {now : UInt64}
      (hp : p.Fits m borrower) :
      DebtChange m (.repay payer borrower amount now) (m.settleRepay p).1

theorem Market.Change.debtChange (hchange : Change m call m') : DebtChange m call m' := by
  cases hchange with
  | accrued ha => exact .accrued ha
  | borrowed hp => exact .borrowed hp
  | repaid hp => exact .repaid hp
  | minted hp => rw [settleMint_fst]; exact .untouched rfl rfl rfl
  | redeemed hp => rw [settleRedeem_fst]; exact .untouched rfl rfl rfl
  | underlyingRedeemed hp => rw [settleRedeem_fst]; exact .untouched rfl rfl rfl
  | transferred hp _ => rw [settleMove_fst]; exact .untouched rfl rfl rfl
  | seized hp _ => rw [settleMove_fst]; exact .untouched rfl rfl rfl
  | registered hplan =>
      rw [settleRegistration, commitCollateral_eq]
      exact .untouched rfl rfl rfl
  | unregistered hplan =>
      rw [settleRegistration, commitCollateral_eq]
      exact .untouched rfl rfl rfl
  | nothing | lent | reservesAdded | reservesReduced | reserveFactorSet | rateModelSet | capped =>
      exact .untouched rfl rfl rfl

theorem Market.debtOf_congr (hindex : m'.borrowIndex = m.borrowIndex)
    (hdebts : m'.debts = m.debts) (account : AccountId) :
    m'.debtOf account = m.debtOf account := by
  unfold debtOf debt
  rw [hindex, hdebts]

/-- Registering or unregistering leaves all debts alone. -/
theorem Market.Change.debtOf_of_registration {holder : AccountId} (hchange : Change m call m')
    (hcall : call = .register holder ∨ call = .unregister holder) :
    m'.debtOf account = m.debtOf account := by
  rcases hcall with rfl | rfl
  all_goals
    cases hchange.debtChange with
    | untouched hindex _ hdebts => exact debtOf_congr hindex hdebts account

theorem Market.debtOf_settleBorrow_of_ne (m : Market) (p : BorrowPlan)
    (hne : p.borrower ≠ account) : (m.settleBorrow p).1.debtOf account = m.debtOf account :=
  debtOf_setDebt_of_ne _ p.debt hne

theorem Market.debtOf_settleRepay_of_ne (m : Market) (p : RepayPlan)
    (hne : p.borrower ≠ account) : (m.settleRepay p).1.debtOf account = m.debtOf account :=
  debtOf_setDebt_of_ne _ p.debt hne

/-- The index grows with accruals and rests otherwise. -/
theorem Market.DebtChange.borrowIndex_le (hchange : DebtChange m call m') :
    m.borrowIndex.mantissa.toNat ≤ m'.borrowIndex.mantissa.toNat := by
  cases hchange with
  | untouched hindex => rw [hindex]
  | accrued ha =>
      obtain ⟨factor, -, hindex⟩ := ha.factor
      exact (Nat.le_add_right ..).trans hindex.ge
  | borrowed | repaid => exact Nat.le_refl _

theorem Market.Reachable.borrowIndex_pos (hm : m.Reachable) :
    0 < m.borrowIndex.mantissa.toNat := by
  apply hm.invariant (P := fun m => 0 < m.borrowIndex.mantissa.toNat)
  · intro m hnew
    rw [hnew.index]
    decide
  · intro m call m' hpos hchange
    exact hpos.trans_le hchange.debtChange.borrowIndex_le

/-- A borrow adds what it lends to the debt. -/
theorem Market.debtOf_settleBorrow {p : BorrowPlan} {borrower : AccountId} {amount : Amount}
    (hindex : 0 < m.borrowIndex.mantissa.toNat) (hp : p.Fits m borrower amount) :
    (m.settleBorrow p).1.debtOf borrower = m.debtOf borrower + amount.toNat := by
  have hwritten : (m.settleBorrow p).1.debtOf p.borrower = p.debt.toNat :=
    debtOf_setDebt_self p.borrower p.debt hindex
  rw [hp.borrower_eq, hp.debt] at hwritten
  exact hwritten

/-- A repayment takes what it repays off the debt, and maybe a fraction. -/
theorem Market.debtOf_settleRepay_le {p : RepayPlan} {borrower : AccountId}
    (hp : p.Fits m borrower) (account : AccountId) :
    (m.settleRepay p).1.debtOf account ≤ m.debtOf account := by
  by_cases heq : p.borrower = account
  · have hwritten : (m.settleRepay p).1.debtOf account ≤ p.debt.toNat := by
      rw [← heq]
      exact debtOf_setDebt_self_le ..
    have hdebt := hp.debt
    rw [← hp.borrower_eq, heq] at hdebt
    omega
  · exact (m.debtOf_settleRepay_of_ne p heq).le

/-- Only repayments lower debts. -/
theorem Market.Change.le_debtOf (hchange : Change m call m')
    (hindex : 0 < m.borrowIndex.mantissa.toNat)
    (hcall : ∀ payer borrower amount now, call ≠ .repay payer borrower amount now)
    (account : AccountId) : m.debtOf account ≤ m'.debtOf account := by
  cases hchange.debtChange with
  | untouched hindex _ hdebts => exact (debtOf_congr hindex hdebts account).ge
  | @accrued a now ha =>
      have hchange : DebtChange m (.accrue now) (m.book now a) := .accrued ha
      have hgrows := hchange.borrowIndex_le
      exact Nat.div_le_div_right (Nat.mul_le_mul_left _ hgrows)
  | @borrowed p borrower amount now hp =>
      by_cases heq : p.borrower = account
      · rw [← heq, hp.borrower_eq, debtOf_settleBorrow hindex hp]
        exact Nat.le_add_right ..
      · exact (m.debtOf_settleBorrow_of_ne p heq).ge
  | repaid => exact absurd rfl (hcall _ _ _ _)

/-- Who owes something after a call owed something before, or borrows. -/
theorem Market.Change.hasDebt_or_borrows (hchange : Change m call m')
    (hdebt : m'.hasDebt account = true) :
    m.hasDebt account = true ∨ ∃ amount now, call = .borrow account amount now := by
  cases hchange.debtChange with
  | untouched _ _ hdebts =>
      left
      unfold hasDebt debt at *
      rwa [hdebts] at hdebt
  | accrued => exact .inl hdebt
  | @borrowed p borrower amount now hp =>
      by_cases heq : p.borrower = account
      · exact .inr ⟨amount, now, by rw [← heq, hp.borrower_eq]⟩
      · left
        unfold hasDebt at *
        rwa [settleBorrow, debt_setDebt, if_neg heq] at hdebt
  | @repaid p payer borrower amount now hp =>
      left
      unfold hasDebt at *
      rw [settleRepay, debt_setDebt] at hdebt
      split_ifs at hdebt with heq hzero
      · simp at hdebt
      · -- what is left of a debt was part of it
        have howed := hp.debt
        rw [← hp.borrower_eq, heq] at howed
        simp only [ne_eq, decide_not, Bool.not_eq_true', decide_eq_false_iff_not]
        intro hnone
        rw [debtOf, hnone, Amount.toNat_zero, Nat.zero_mul, Nat.zero_div] at howed
        exact hzero (Amount.eq_zero_iff.mpr (by omega))
      · exact hdebt

end MoneyMarket
