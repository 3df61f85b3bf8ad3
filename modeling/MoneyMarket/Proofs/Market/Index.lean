import MoneyMarket.Proofs.Market.Ledgers

/-! # The index and the time of a market

Interest is booked for the time since the last accrual, and neither that time
nor the index that debts grow with goes back. A debt is kept with the index at
which it was written down, and the index of the market has been at or above it
ever since. So a debt is at least its principal, and computing it never divides
by zero.
-/

namespace MoneyMarket

open Market

variable {m m' : Market} {account : AccountId} {call : Call} {calls : List Call}
  {events : List Event} {now : UInt64}

/-! ## The index at which a debt was written down -/

/-- The index starts at one, and debts are written down at indices since. -/
structure Market.Indexed (m : Market) : Prop where
  index : 1 ≤ m.borrowIndex
  debts : ∀ account debt, m.debts.get? account = some debt →
    1 ≤ debt.interestIndex ∧ debt.interestIndex ≤ m.borrowIndex

theorem Market.IsNew.indexed (hm : m.IsNew) : m.Indexed := by
  constructor
  · rw [hm.index]
    exact Nat.le_refl _
  · intro account debt hdebt
    rw [hm.debts] at hdebt
    cases hdebt

theorem Market.Indexed.of_le (hm : m.Indexed) (hindex : m.borrowIndex ≤ m'.borrowIndex)
    (hdebts : m'.debts = m.debts) : m'.Indexed := by
  refine ⟨Nat.le_trans hm.index hindex, ?_⟩
  intro account debt hdebt
  rw [hdebts] at hdebt
  obtain ⟨hone, hle⟩ := hm.debts account debt hdebt
  exact ⟨hone, Nat.le_trans hle hindex⟩

theorem Market.Indexed.setDebt (hm : m.Indexed) (borrower : AccountId) (principal : Amount) :
    (m.setDebt borrower principal).Indexed := by
  refine ⟨hm.index, ?_⟩
  intro account debt hdebt
  rw [get?_setDebt] at hdebt
  split_ifs at hdebt with heq hzero
  · -- written down at the index of now
    cases hdebt
    exact ⟨hm.index, Nat.le_refl _⟩
  · exact hm.debts account debt hdebt

theorem Market.Indexed.change (hm : m.Indexed) (hchange : Change m call m') : m'.Indexed := by
  have hgrows : m.borrowIndex ≤ m'.borrowIndex := hchange.debtChange.borrowIndex_le
  cases hchange.debtChange with
  | untouched _ _ hdebts => exact hm.of_le hgrows hdebts
  | accrued => exact hm.of_le hgrows rfl
  | @borrowed p =>
      have hkept : Indexed { m with cash := p.cash, totalBorrows := p.totalBorrows } := { hm with }
      exact hkept.setDebt p.borrower p.debt
  | @repaid p =>
      have hkept : Indexed { m with cash := p.cash, totalBorrows := p.totalBorrows } := { hm with }
      exact hkept.setDebt p.borrower p.debt

theorem Market.Reachable.indexed (hm : m.Reachable) : m.Indexed :=
  hm.invariant (fun _ => IsNew.indexed) fun _ _ _ => Indexed.change

/-- Only a debt of nothing was never written down. -/
theorem Market.Indexed.interestIndex (hm : m.Indexed)
    (hprincipal : (m.debt account).principal ≠ 0) :
    1 ≤ (m.debt account).interestIndex ∧ (m.debt account).interestIndex ≤ m.borrowIndex := by
  unfold debt Registry.getD at hprincipal ⊢
  cases hdebt : m.debts.get? account with
  | none => simp [hdebt] at hprincipal
  | some debt => exact hm.debts account debt hdebt

theorem Market.Indexed.interestIndex_pos (hm : m.Indexed)
    (hprincipal : (m.debt account).principal ≠ 0) :
    0 < (m.debt account).interestIndex.mantissa.toNat :=
  Nat.lt_of_lt_of_le (by decide) (Wad.le_def.mp (hm.interestIndex hprincipal).1)

/-- A debt divides by the index at which it was written down. -/
theorem Market.Indexed.avoids_owed {e : ArithmeticError} (hm : m.Indexed)
    (hoverflow : e ≠ .overflow) : Avoids e (m.owed account) := by
  unfold owed
  dsimp only
  split
  next => exact avoids_pure _ _
  next hprincipal =>
    have hpos := hm.interestIndex_pos hprincipal
    refine (Amount.avoids_mul hoverflow).bind fun _ _ => Amount.avoids_div ?_
    rw [ne_eq, Amount.eq_zero_iff]
    exact hpos.ne'

theorem Market.Indexed.principal_le_debtOf (hm : m.Indexed) (account : AccountId) :
    (m.debt account).principal.toNat ≤ m.debtOf account := by
  by_cases hprincipal : (m.debt account).principal = 0
  · rw [hprincipal]
    exact Nat.zero_le _
  · have hle := Wad.le_def.mp (hm.interestIndex hprincipal).2
    exact (Nat.le_div_iff_mul_le (hm.interestIndex_pos hprincipal)).mpr (Nat.mul_le_mul_left _ hle)

/-! ## Time -/

theorem Market.accrue_accrualTimestamp {event : Option Event}
    (haccrue : m.accrue now = .ok (m', event)) :
    m.accrualTimestamp ≤ now ∧ m'.accrualTimestamp = now := by
  unfold accrue at haccrue
  split at haccrue
  next hnow =>
    simp only [pure_eq_ok, Prod.mk.injEq] at haccrue
    rw [← haccrue.1, hnow]
    exact ⟨UInt64.le_refl _, rfl⟩
  next =>
    simp only [bind_eq_ok, pure_eq_ok, Prod.mk.injEq] at haccrue
    obtain ⟨a, ha, rfl, -⟩ := haccrue
    simp only [accrualAt, guard_eq_ok] at ha
    exact ⟨UInt64.not_lt.mp ha.1, rfl⟩

/-- Nothing but an accrual moves the time. -/
theorem Market.Change.accrualTimestamp_eq (hchange : Change m call m')
    (hcall : ∀ now, call ≠ .accrue now) : m'.accrualTimestamp = m.accrualTimestamp := by
  cases hchange with
  | accrued => exact absurd rfl (hcall _)
  | minted => rw [settleMint_fst]
  | redeemed | underlyingRedeemed => rw [settleRedeem_fst]
  | transferred | seized => rw [settleMove_fst]
  | registered | unregistered => rw [settleRegistration, commitCollateral_eq]
  | nothing | borrowed | repaid | lent | reservesAdded | reservesReduced | reserveFactorSet
  | rateModelSet | capped => rfl

theorem Market.accrualTimestamp_le_of_perform (hperform : m.perform call = .ok (m', events)) :
    m.accrualTimestamp ≤ m'.accrualTimestamp := by
  by_cases hcall : ∃ now, call = .accrue now
  · obtain ⟨now, rfl⟩ := hcall
    obtain ⟨event, haccrue, -⟩ := perform_accrue_eq_ok.mp hperform
    obtain ⟨hle, hnow⟩ := accrue_accrualTimestamp haccrue
    rwa [hnow]
  · rw [(change_of_perform hperform).accrualTimestamp_eq fun now hnow => hcall ⟨now, hnow⟩]
    exact UInt64.le_refl _

theorem Market.run_le (hrun : m.run calls = .ok (m', events)) :
    m.borrowIndex ≤ m'.borrowIndex ∧ m.accrualTimestamp ≤ m'.accrualTimestamp := by
  induction calls generalizing m events with
  | nil =>
      cases pure_eq_ok.mp hrun
      exact ⟨Nat.le_refl _, UInt64.le_refl _⟩
  | cons call rest ih =>
      obtain ⟨m₁, first, later, hperform, hrest, -⟩ := run_cons_eq_ok.mp hrun
      obtain ⟨hindex, htime⟩ := ih hrest
      have hfirst : m.borrowIndex ≤ m₁.borrowIndex :=
        (change_of_perform hperform).debtChange.borrowIndex_le
      exact ⟨Nat.le_trans hfirst hindex,
        UInt64.le_trans (accrualTimestamp_le_of_perform hperform) htime⟩

/-! ## Debts across an accrual -/

/-- Booking interest raises what is borrowed, and debts through the index. -/
theorem Market.le_of_accrue {event : Option Event} (haccrue : m.accrue now = .ok (m', event)) :
    m.borrowIndex ≤ m'.borrowIndex ∧ m.totalBorrows ≤ m'.totalBorrows ∧
      m'.debts = m.debts ∧ m'.balances = m.balances := by
  rcases accrue_eq_ok haccrue with rfl | ⟨a, ha, rfl⟩
  · exact ⟨Nat.le_refl _, Nat.le_refl _, rfl, rfl⟩
  · have hchange : DebtChange m (.accrue now) (m.book now a) := .accrued ha
    refine ⟨hchange.borrowIndex_le, ?_, rfl, rfl⟩
    exact (Nat.le_add_right ..).trans ha.borrows.ge

/-- A debt can be computed where the principal times the index fits. -/
theorem Market.product_lt_of_owed {o : Amount} (howed : m.owed account = .ok o) :
    (m.debt account).principal.toNat * m.borrowIndex.mantissa.toNat < 2 ^ 256 := by
  unfold owed at howed
  dsimp only at howed
  split at howed
  next hprincipal =>
    rw [hprincipal, Amount.toNat_zero, Nat.zero_mul]
    decide
  next =>
    simp only [bind_eq_ok, Amount.mul_eq_ok] at howed
    obtain ⟨product, hproduct, -⟩ := howed
    exact hproduct ▸ product.toNat_lt

theorem Market.Indexed.exists_owed (hm : m.Indexed)
    (hfits : (m.debt account).principal.toNat * m.borrowIndex.mantissa.toNat < 2 ^ 256) :
    ∃ o, m.owed account = .ok o := by
  unfold owed
  dsimp only
  split
  next => exact ⟨0, rfl⟩
  next hprincipal =>
    obtain ⟨product, hproduct⟩ := Amount.exists_toNat_eq hfits
    simp only [bind_eq_ok, Amount.mul_eq_ok, Amount.div_eq_ok]
    exact ⟨product.quotient _, product, hproduct.symm, (hm.interestIndex_pos hprincipal).ne', rfl⟩

/-- Where a debt can still be computed after the index has grown it could be
computed before. -/
theorem Market.Indexed.exists_owed_le {o' : Amount} (hm : m.Indexed)
    (hindex : m.borrowIndex ≤ m'.borrowIndex) (hdebts : m'.debts = m.debts)
    (howed : m'.owed account = .ok o') : ∃ o, m.owed account = .ok o ∧ o ≤ o' := by
  have hdebt : m'.debt account = m.debt account := by rw [debt, debt, hdebts]
  -- the smaller product fits too
  have hproduct : (m.debt account).principal.toNat * m.borrowIndex.mantissa.toNat ≤
      (m'.debt account).principal.toNat * m'.borrowIndex.mantissa.toNat := by
    rw [hdebt]
    exact Nat.mul_le_mul_left _ hindex
  obtain ⟨o, ho⟩ := hm.exists_owed (hproduct.trans_lt (product_lt_of_owed howed))
  refine ⟨o, ho, ?_⟩
  rw [Amount.le_def, owed_eq_ok ho, owed_eq_ok howed, debtOf, debtOf, ← hdebt]
  exact Nat.div_le_div_right (hdebt ▸ hproduct)

/-- The index of a market is at least one. Every debt that is kept was written
down between that and the index, so computing it divides by no zero and gives
no less than its principal. Neither the index nor the time goes back, and an
accrual lowers no debt. -/
theorem Market.Reachable.debts_indexed (hm : m.Reachable) :
    1 ≤ m.borrowIndex ∧
      (∀ account debt, m.debts.get? account = some debt →
        0 < debt.principal ∧ 1 ≤ debt.interestIndex ∧ debt.interestIndex ≤ m.borrowIndex) ∧
      (∀ account, m.owed account ≠ .error .divideByZero ∧
        ∀ o, m.owed account = .ok o → (m.debt account).principal ≤ o) ∧
      (∀ calls m' events, m.run calls = .ok (m', events) →
        m.borrowIndex ≤ m'.borrowIndex ∧ m.accrualTimestamp ≤ m'.accrualTimestamp) ∧
      ∀ now m' event, m.accrue now = .ok (m', event) →
        m.totalBorrows ≤ m'.totalBorrows ∧ m'.balances = m.balances ∧
          ∀ account o', m'.owed account = .ok o' → ∃ o, m.owed account = .ok o ∧ o ≤ o' := by
  have hindexed := hm.indexed
  refine ⟨hindexed.index, ?_, ?_, fun _ _ _ => run_le, ?_⟩
  · intro account debt hdebt
    have hprincipal := hm.orderly.debts account debt hdebt
    rw [ne_eq, Amount.eq_zero_iff] at hprincipal
    exact ⟨Nat.pos_of_ne_zero hprincipal, hindexed.debts account debt hdebt⟩
  · intro account
    refine ⟨hindexed.avoids_owed (by decide), ?_⟩
    intro o howed
    rw [Amount.le_def, owed_eq_ok howed]
    exact hindexed.principal_le_debtOf account
  · intro now m' event haccrue
    obtain ⟨hindex, hborrows, hdebts, hbalances⟩ := le_of_accrue haccrue
    exact ⟨hborrows, hbalances, fun _ _ => hindexed.exists_owed_le hindex hdebts⟩

theorem Market.sample_debts_indexed : ∃ m' event o o',
    sample.accrue 2000 = .ok (m', event) ∧ m'.owed ⟨"bob"⟩ = .ok o' ∧
      sample.owed ⟨"bob"⟩ = .ok o ∧ o ≤ o' := by
  obtain ⟨-, -, -, -, hgrow⟩ := sample_reachable.debts_indexed
  obtain ⟨m', event, o', haccrue, howed⟩ : ∃ m' event o',
      sample.accrue 2000 = .ok (m', event) ∧ m'.owed ⟨"bob"⟩ = .ok o' := ⟨_, _, _, rfl, rfl⟩
  obtain ⟨o, ho, hle⟩ := (hgrow 2000 m' event haccrue).2.2 ⟨"bob"⟩ o' howed
  exact ⟨m', event, o, o', haccrue, howed, ho, hle⟩

end MoneyMarket
