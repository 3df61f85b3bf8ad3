import MoneyMarket.Proofs.Market.Index

/-! # Writing a debt down anew

A repayment of nothing moves no underlying, but it writes a debt down at the
index of now, without the fraction that the debt had reached. A market that
differs in this one debt goes through the same calls with the same events, as
long as they concern other debts. At the end the account owes no more than
without the repayment, and less by no more than what the fraction has grown to
since and one rounding. Without a fraction, or without interest since, it owes
the same.
-/

namespace MoneyMarket

open Market

variable {m m' n : Market} {account : AccountId} {call : Call} {calls : List Call}
  {events : List Event} {now : UInt64} {debts : Registry AccountId Debt}

/-- The account whose debt a call changes. -/
def Market.Call.debtor? : Call → Option AccountId
  | .borrow borrower _ _ | .repay _ borrower _ _ => some borrower
  | _ => none

/-! ## Calls that read no debt -/

/-- The market with other debts. -/
def Market.withDebts (m : Market) (debts : Registry AccountId Debt) : Market := { m with debts }

theorem Market.settleMint_withDebts (m : Market) (p : MintPlan) :
    (m.withDebts debts).settleMint p =
      ((m.settleMint p).1.withDebts debts, (m.settleMint p).2) := by
  refine Prod.ext ?_ ?_
  · rw [settleMint_fst, settleMint_fst]
    rfl
  · unfold settleMint
    cases p.collateral <;> rfl

theorem Market.settleRedeem_withDebts (m : Market) (p : RedeemPlan) :
    (m.withDebts debts).settleRedeem p =
      ((m.settleRedeem p).1.withDebts debts, (m.settleRedeem p).2) := by
  refine Prod.ext ?_ ?_
  · rw [settleRedeem_fst, settleRedeem_fst]
    rfl
  · unfold settleRedeem
    cases p.collateral <;> rfl

theorem Market.settleMove_withDebts (m : Market) (p : MovePlan) :
    (m.withDebts debts).settleMove p =
      ((m.settleMove p).1.withDebts debts, (m.settleMove p).2) := by
  refine Prod.ext ?_ ?_
  · rw [settleMove_fst, settleMove_fst]
    rfl
  · unfold settleMove
    cases p.collateral <;> rfl

theorem Market.accrue_withDebts {event : Option Event}
    (haccrue : m.accrue now = .ok (m', event)) :
    (m.withDebts debts).accrue now = .ok (m'.withDebts debts, event) := by
  unfold accrue at haccrue ⊢
  split at haccrue
  next hnow =>
    cases pure_eq_ok.mp haccrue
    exact if_pos hnow
  next hnow =>
    simp only [bind_eq_ok, pure_eq_ok, Prod.mk.injEq] at haccrue
    obtain ⟨a, ha, rfl, rfl⟩ := haccrue
    refine (if_neg hnow).trans (bind_eq_ok.mpr ⟨a, ha, rfl⟩)

/-- A call that changes no debt does not look at debts either. -/
theorem Market.perform_withDebts (hcall : call.debtor? = none)
    (hperform : m.perform call = .ok (m', events)) :
    (m.withDebts debts).perform call = .ok (m'.withDebts debts, events) := by
  cases call with
  | borrow | repay => cases hcall
  | accrue now =>
      obtain ⟨event, haccrue, rfl⟩ := perform_accrue_eq_ok.mp hperform
      exact perform_accrue_eq_ok.mpr ⟨event, accrue_withDebts haccrue, rfl⟩
  | mint minter amount isMember now =>
      obtain ⟨p, hp, rfl, rfl⟩ := perform_mint_eq_ok.mp hperform
      refine perform_mint_eq_ok.mpr ⟨p, hp, ?_⟩
      rw [settleMint_withDebts]
      exact ⟨rfl, rfl⟩
  | redeem redeemer tokens now =>
      obtain ⟨p, hp, rfl, rfl⟩ := perform_redeem_eq_ok.mp hperform
      refine perform_redeem_eq_ok.mpr ⟨p, hp, ?_⟩
      rw [settleRedeem_withDebts]
      exact ⟨rfl, rfl⟩
  | redeemUnderlying redeemer amount now =>
      obtain ⟨p, hp, rfl, rfl⟩ := perform_redeemUnderlying_eq_ok.mp hperform
      refine perform_redeemUnderlying_eq_ok.mpr ⟨p, hp, ?_⟩
      rw [settleRedeem_withDebts]
      exact ⟨rfl, rfl⟩
  | transfer source target tokens targetIsMember =>
      obtain ⟨p, hp, rfl, rfl⟩ := perform_transfer_eq_ok.mp hperform
      refine perform_transfer_eq_ok.mpr ⟨p, hp, ?_⟩
      rw [settleMove_withDebts]
      exact ⟨rfl, rfl⟩
  | seize liquidator borrower tokens now =>
      obtain ⟨p, hp, rfl, rfl⟩ := perform_seize_eq_ok.mp hperform
      refine perform_seize_eq_ok.mpr ⟨p, hp, ?_⟩
      rw [settleMove_withDebts]
      exact ⟨rfl, rfl⟩
  | flashloan receiver amount repaid now =>
      obtain ⟨p, hp, rfl, rfl⟩ := perform_flashloan_eq_ok.mp hperform
      exact perform_flashloan_eq_ok.mpr ⟨p, hp, rfl, rfl⟩
  | register account =>
      obtain ⟨plan, hplan, rfl, rfl⟩ := perform_register_eq_ok.mp hperform
      exact perform_register_eq_ok.mpr ⟨plan, hplan, rfl, rfl⟩
  | unregister account =>
      obtain ⟨plan, hplan, rfl, rfl⟩ := perform_unregister_eq_ok.mp hperform
      exact perform_unregister_eq_ok.mpr ⟨plan, hplan, rfl, rfl⟩
  | addReserves benefactor amount now =>
      obtain ⟨event, hadd, rfl⟩ := perform_addReserves_eq_ok.mp hperform
      refine perform_addReserves_eq_ok.mpr ⟨event, ?_, rfl⟩
      simp only [addReserves, bind_eq_ok, pure_eq_ok, Prod.mk.injEq] at hadd ⊢
      obtain ⟨u, hfresh, cash, hcash, reserves, hreserves, rfl, hevent⟩ := hadd
      exact ⟨u, hfresh, cash, hcash, reserves, hreserves, rfl, hevent⟩
  | reduceReserves admin amount now =>
      obtain ⟨event, hreduce, rfl⟩ := perform_reduceReserves_eq_ok.mp hperform
      refine perform_reduceReserves_eq_ok.mpr ⟨event, ?_, rfl⟩
      simp only [reduceReserves, bind_eq_ok, pure_eq_ok, Prod.mk.injEq] at hreduce ⊢
      obtain ⟨u, hfresh, v, hcovered, reserves, hreserves, cash, hcash, rfl, hevent⟩ := hreduce
      exact ⟨u, hfresh, v, hcovered, reserves, hreserves, cash, hcash, rfl, hevent⟩
  | setReserveFactor reserveFactor now =>
      obtain ⟨event, hset, rfl⟩ := perform_setReserveFactor_eq_ok.mp hperform
      refine perform_setReserveFactor_eq_ok.mpr ⟨event, ?_, rfl⟩
      simp only [setReserveFactor, guard_eq_ok, bind_eq_ok, pure_eq_ok, Prod.mk.injEq] at hset ⊢
      obtain ⟨u, hfresh, hle, rfl, hevent⟩ := hset
      exact ⟨u, hfresh, hle, rfl, hevent⟩
  | setRateModel rateModel now =>
      obtain ⟨hset, rfl⟩ := perform_setRateModel_eq_ok.mp hperform
      refine perform_setRateModel_eq_ok.mpr ⟨?_, rfl⟩
      simp only [setRateModel, bind_eq_ok, pure_eq_ok] at hset ⊢
      obtain ⟨u, hfresh, rfl⟩ := hset
      exact ⟨u, hfresh, rfl⟩
  | setCollateralCap cap =>
      obtain ⟨hset, rfl⟩ := perform_setCollateralCap_eq_ok.mp hperform
      obtain ⟨ledger, hkind, rfl⟩ := setCollateralCap_eq_ok.mp hset
      exact perform_setCollateralCap_eq_ok.mpr
        ⟨setCollateralCap_eq_ok.mpr ⟨ledger, hkind, rfl⟩, rfl⟩

/-- A call changes no debt but that of its debtor. -/
theorem Market.Change.get?_debts_eq (hchange : Change m call m')
    (hcall : call.debtor? ≠ some account) : m'.debts.get? account = m.debts.get? account := by
  cases hchange.debtChange with
  | untouched _ _ hdebts => rw [hdebts]
  | accrued => rfl
  | @borrowed p borrower amount now hp =>
      have hne : p.borrower ≠ account := fun heq => hcall (congrArg some (hp.borrower_eq ▸ heq))
      exact (get?_setDebt ..).trans (if_neg hne)
  | @repaid p payer borrower amount now hp =>
      have hne : p.borrower ≠ account := fun heq => hcall (congrArg some (hp.borrower_eq ▸ heq))
      exact (get?_setDebt ..).trans (if_neg hne)

theorem Market.get?_debts_of_run (hcalls : ∀ call ∈ calls, call.debtor? ≠ some account)
    (hrun : m.run calls = .ok (m', events)) : m'.debts.get? account = m.debts.get? account := by
  induction calls generalizing m events with
  | nil =>
      cases pure_eq_ok.mp hrun
      rfl
  | cons call rest ih =>
      obtain ⟨m₁, first, later, hperform, hrest, -⟩ := run_cons_eq_ok.mp hrun
      obtain ⟨hcall, hcalls⟩ := List.forall_mem_cons.mp hcalls
      exact (ih hcalls hrest).trans ((change_of_perform hperform).get?_debts_eq hcall)

/-! ## Markets that differ in one debt -/

/-- Two markets that are the same but for the debt of an account. -/
structure Market.SameBut (account : AccountId) (m n : Market) : Prop where
  rest : n = m.withDebts n.debts
  debts : ∀ other, other ≠ account → n.debts.get? other = m.debts.get? other

namespace Market.SameBut

theorem borrowIndex_eq (hsame : m.SameBut account n) : n.borrowIndex = m.borrowIndex := by
  rw [hsame.rest]
  rfl

theorem owed_eq {other : AccountId} (hsame : m.SameBut account n) (hne : other ≠ account) :
    n.owed other = m.owed other := by
  have hdebt : n.debt other = m.debt other := by
    unfold debt Registry.getD
    rw [hsame.debts other hne]
  unfold owed
  rw [hdebt, hsame.borrowIndex_eq]

theorem setDebt (hsame : m.SameBut account n) (borrower : AccountId) (principal : Amount) :
    (m.setDebt borrower principal).SameBut account (n.setDebt borrower principal) := by
  constructor
  · rw [hsame.rest]
    rfl
  · intro other hne
    rw [get?_setDebt, get?_setDebt, hsame.debts other hne, hsame.borrowIndex_eq]

/-- Writing the debt of the account down makes the difference. -/
theorem setDebt_self (m : Market) (account : AccountId) (principal : Amount) :
    m.SameBut account (m.setDebt account principal) := by
  refine ⟨rfl, ?_⟩
  intro other hne
  rw [get?_setDebt, if_neg (Ne.symm hne)]

/-- A call for another debtor has the same plan. -/
theorem planBorrow_eq {borrower : AccountId} (hsame : m.SameBut account n)
    (hne : borrower ≠ account) (amount : Amount) (now : UInt64) :
    n.planBorrow borrower amount now = m.planBorrow borrower amount now := by
  have howed := hsame.owed_eq hne
  rw [hsame.rest] at howed ⊢
  unfold planBorrow
  rw [howed]
  rfl

theorem planRepay_eq {payer borrower : AccountId} (hsame : m.SameBut account n)
    (hne : borrower ≠ account) (amount : Amount) (now : UInt64) :
    n.planRepay payer borrower amount now = m.planRepay payer borrower amount now := by
  have howed := hsame.owed_eq hne
  rw [hsame.rest] at howed ⊢
  unfold planRepay
  rw [howed]
  rfl

theorem withTotals (hsame : m.SameBut account n) (cash totalBorrows : Amount) :
    Market.SameBut account { m with cash, totalBorrows } { n with cash, totalBorrows } := by
  refine ⟨?_, hsame.debts⟩
  rw [hsame.rest]
  rfl

theorem settleBorrow (hsame : m.SameBut account n) (p : BorrowPlan) :
    (n.settleBorrow p).2 = (m.settleBorrow p).2 ∧
      (m.settleBorrow p).1.SameBut account (n.settleBorrow p).1 := by
  refine ⟨?_, (hsame.withTotals p.cash p.totalBorrows).setDebt p.borrower p.debt⟩
  rw [hsame.rest]
  rfl

theorem settleRepay (hsame : m.SameBut account n) (p : RepayPlan) :
    (n.settleRepay p).2 = (m.settleRepay p).2 ∧
      (m.settleRepay p).1.SameBut account (n.settleRepay p).1 := by
  refine ⟨?_, (hsame.withTotals p.cash p.totalBorrows).setDebt p.borrower p.debt⟩
  rw [hsame.rest]
  rfl

/-- What one of the markets goes through the other goes through, with the same
events, unless it concerns the debt. -/
theorem perform (hsame : m.SameBut account n) (hcall : call.debtor? ≠ some account)
    (hperform : m.perform call = .ok (m', events)) :
    ∃ n', n.perform call = .ok (n', events) ∧ m'.SameBut account n' := by
  cases hdebtor : call.debtor? with
  | none =>
      -- the other market goes through the call with the debts it had
      refine ⟨m'.withDebts n.debts, ?_, rfl, ?_⟩
      · rw [hsame.rest]
        exact perform_withDebts hdebtor hperform
      · intro other hne
        have hother : call.debtor? ≠ some other := by simp [hdebtor]
        have hkept := (change_of_perform hperform).get?_debts_eq hother
        exact (hsame.debts other hne).trans hkept.symm
  | some debtor =>
      -- both markets have the same plan, since this debtor owes the same in both
      have hne : debtor ≠ account := fun heq => hcall (heq ▸ hdebtor)
      cases call with
      | borrow borrower amount now =>
          cases hdebtor
          obtain ⟨p, hp, rfl, rfl⟩ := perform_borrow_eq_ok.mp hperform
          obtain ⟨hevents, hafter⟩ := hsame.settleBorrow p
          have hp' := (hsame.planBorrow_eq hne amount now).trans hp
          exact ⟨_, perform_borrow_eq_ok.mpr ⟨p, hp', rfl, hevents.symm⟩, hafter⟩
      | repay payer borrower amount now =>
          cases hdebtor
          obtain ⟨p, hp, rfl, rfl⟩ := perform_repay_eq_ok.mp hperform
          obtain ⟨hevents, hafter⟩ := hsame.settleRepay p
          have hp' := (hsame.planRepay_eq hne amount now).trans hp
          exact ⟨_, perform_repay_eq_ok.mpr ⟨p, hp', rfl, hevents.symm⟩, hafter⟩
      | _ => cases hdebtor

theorem run (hsame : m.SameBut account n) (hcalls : ∀ call ∈ calls, call.debtor? ≠ some account)
    (hrun : m.run calls = .ok (m', events)) :
    ∃ n', n.run calls = .ok (n', events) ∧ m'.SameBut account n' := by
  induction calls generalizing m n events with
  | nil =>
      cases pure_eq_ok.mp hrun
      exact ⟨n, rfl, hsame⟩
  | cons call rest ih =>
      obtain ⟨m₁, first, later, hperform, hrest, hall⟩ := run_cons_eq_ok.mp hrun
      obtain ⟨hcall, hcalls⟩ := List.forall_mem_cons.mp hcalls
      obtain ⟨n₁, hperform', hsame₁⟩ := hsame.perform hcall hperform
      obtain ⟨n', hrest', hsame'⟩ := ih hsame₁ hcalls hrest
      exact ⟨n', run_cons_eq_ok.mpr ⟨n₁, first, later, hperform', hrest', hall⟩, hsame'⟩

end Market.SameBut

/-! ## A repayment of nothing -/

/-- The debt is written down as it stands, and that is all. -/
theorem Market.perform_repay_zero {payer : AccountId}
    (hrepay : m.perform (.repay payer account 0 now) = .ok (m', events)) :
    ∃ owed, m.owed account = .ok owed ∧ m' = m.setDebt account owed := by
  obtain ⟨p, hp, rfl, -⟩ := perform_repay_eq_ok.mp hrepay
  simp only [planRepay, bind_eq_ok, pure_eq_ok, liftM_market_eq_ok, Amount.add_eq_ok,
    Amount.sub_eq_ok] at hp
  obtain ⟨-, -, owed, howed, debt, hdebt, borrows, hborrows, cash, hcash, rfl⟩ := hp
  have hzero : (0 : Amount) ≠ .largest := by decide
  rw [if_neg hzero, Amount.toNat_zero] at hdebt hborrows hcash
  obtain rfl : owed = debt := Amount.ext (by omega)
  obtain rfl : m.totalBorrows = borrows := Amount.ext (by omega)
  obtain rfl : m.cash = cash := Amount.ext (by omega)
  exact ⟨owed, howed, rfl⟩

/-! ## Growing in two steps -/

section Growing

variable {p i j k : Nat}

/-- What grows from `i` to `k` by way of `j` loses the fraction on the way. -/
theorem regrown_le (hj : 0 < j) : p * j / i * k / j ≤ p * k / i := by
  rcases Nat.eq_zero_or_pos i with rfl | hi
  · simp
  · rw [Nat.le_div_iff_mul_le hi]
    refine Nat.le_of_mul_le_mul_right ?_ hj
    calc p * j / i * k / j * i * j
      _ = p * j / i * k / j * j * i := Nat.mul_right_comm _ _ _
      _ ≤ p * j / i * k * i := Nat.mul_le_mul_right _ (Nat.div_mul_le_self _ _)
      _ = p * j / i * i * k := Nat.mul_right_comm _ _ _
      _ ≤ p * j * k := Nat.mul_le_mul_right _ (Nat.div_mul_le_self _ _)
      _ = p * k * j := Nat.mul_right_comm _ _ _

/-- It loses what the fraction would have grown to, and one rounding. -/
theorem grown_sub_regrown_lt (hi : 0 < i) (hj : 0 < j) :
    (p * k / i - p * j / i * k / j) * (i * j) < i * j + p * j % i * k := by
  have hgrown : p * k / i * (i * j) ≤ p * j * k := calc
    _ = p * k / i * i * j := (Nat.mul_assoc _ _ _).symm
    _ ≤ p * k * j := Nat.mul_le_mul_right _ (Nat.div_mul_le_self _ _)
    _ = p * j * k := Nat.mul_right_comm _ _ _
  have hsplit : p * j * k = i * (p * j / i * k) + p * j % i * k := by
    rw [← Nat.mul_assoc, ← Nat.add_mul, Nat.div_add_mod]
  have hregrown : i * (p * j / i * k) <
      p * j / i * k / j * (i * j) + i * j := calc
    _ < i * ((p * j / i * k / j + 1) * j) :=
      Nat.mul_lt_mul_of_pos_left (Nat.lt_mul_of_div_lt (Nat.lt_succ_self _) hj) hi
    _ = (p * j / i * k / j + 1) * (i * j) := Nat.mul_left_comm _ _ _
    _ = p * j / i * k / j * (i * j) + i * j := Nat.succ_mul _ _
  have hindices := Nat.mul_pos hi hj
  rw [Nat.sub_mul]
  omega

/-- That is less than what a unit grows to, and a unit. -/
theorem grown_sub_regrown_mul_lt (hj : 0 < j) :
    (p * k / i - p * j / i * k / j) * j < j + k := by
  rcases Nat.eq_zero_or_pos i with rfl | hi
  · simp only [Nat.div_zero, Nat.zero_sub, Nat.zero_mul]
    omega
  · refine Nat.lt_of_mul_lt_mul_left (a := i) ?_
    have hfraction : p * j % i * k ≤ i * k :=
      Nat.mul_le_mul_right _ (Nat.mod_lt _ hi).le
    have hlost := grown_sub_regrown_lt (p := p) (k := k) hi hj
    rw [Nat.mul_left_comm, Nat.mul_add]
    omega

/-- Without a fraction nothing is lost. -/
theorem regrown_eq (hj : 0 < j) (hfraction : p * j % i = 0) :
    p * j / i * k / j = p * k / i := by
  rcases Nat.eq_zero_or_pos i with rfl | hi
  · simp
  · have hlost := grown_sub_regrown_lt (p := p) (k := k) hi hj
    have hle : p * j / i * k / j ≤ p * k / i := regrown_le hj
    rw [hfraction, Nat.zero_mul, Nat.add_zero] at hlost
    have hless := Nat.lt_of_mul_lt_mul_right (hlost.trans_eq (Nat.one_mul _).symm)
    omega

end Growing

/-! ## What is owed at the end -/

/-- What is cut off a debt: the remainder of dividing it by the index at which it
was written down. -/
def Market.debtFraction (m : Market) (account : AccountId) : Nat :=
  (m.debt account).principal.toNat * m.borrowIndex.mantissa.toNat %
    (m.debt account).interestIndex.mantissa.toNat

theorem Market.debt_congr (hdebts : m'.debts.get? account = m.debts.get? account) :
    m'.debt account = m.debt account := by
  unfold debt Registry.getD
  rw [hdebts]

/-- A debt that was written down at the index of one market, in another market. -/
theorem Market.debtOf_of_setDebt {owed : Amount}
    (hdebt : n.debt account = (m.setDebt account owed).debt account) :
    n.debtOf account =
      owed.toNat * n.borrowIndex.mantissa.toNat / m.borrowIndex.mantissa.toNat := by
  rw [debt_setDebt, if_pos rfl] at hdebt
  unfold debtOf
  rw [hdebt]
  split
  next hzero => simp [hzero]
  next => rfl

/-- The principal of a debt that was written down is what was owed. -/
theorem Market.principal_of_setDebt {owed : Amount}
    (hdebt : n.debt account = (m.setDebt account owed).debt account) :
    (n.debt account).principal = owed := by
  rw [hdebt, debt_setDebt, if_pos rfl]
  split
  next hzero => exact hzero.symm
  next => rfl

/-- Two markets at the same index, one of which has written the debt down on the
way: what the account owes in it, in comparison. -/
theorem Market.Indexed.owed_rebased {plain final : Market} {owed o' : Amount}
    (hm : m.Indexed) (hplain : plain.Indexed) (howed : m.owed account = .ok owed)
    (hkept : plain.debt account = m.debt account) (hindex : final.borrowIndex = plain.borrowIndex)
    (hrebased : final.debt account = (m.setDebt account owed).debt account)
    (ho' : final.owed account = .ok o') :
    ∃ o, plain.owed account = .ok o ∧ o' ≤ o ∧
      (o.toNat - o'.toNat) * m.borrowIndex.mantissa.toNat <
        m.borrowIndex.mantissa.toNat + plain.borrowIndex.mantissa.toNat ∧
      (m.debtFraction account = 0 ∨ plain.borrowIndex = m.borrowIndex → o' = o) := by
  have hpos : 0 < m.borrowIndex.mantissa.toNat :=
    Nat.lt_of_lt_of_le (by decide) (Wad.le_def.mp hm.index)
  -- the principal has grown, so the smaller product fits
  have hfits := product_lt_of_owed ho'
  rw [principal_of_setDebt hrebased, owed_eq_ok howed, hindex] at hfits
  obtain ⟨o, ho⟩ : ∃ o, plain.owed account = .ok o := by
    refine hplain.exists_owed (Nat.lt_of_le_of_lt (Nat.mul_le_mul_right _ ?_) hfits)
    rw [hkept]
    exact hm.principal_le_debtOf account
  refine ⟨o, ho, ?_⟩
  have hgrown := owed_eq_ok ho
  have hregrown := owed_eq_ok ho'
  rw [debtOf, hkept] at hgrown
  rw [debtOf_of_setDebt hrebased, owed_eq_ok howed, debtOf, hindex] at hregrown
  rw [Amount.le_def, Amount.ext_iff, hgrown, hregrown]
  refine ⟨regrown_le hpos, grown_sub_regrown_mul_lt hpos, ?_⟩
  rintro (hfraction | hrested)
  · exact regrown_eq hpos hfraction
  · rw [hrested]
    exact Nat.mul_div_cancel _ hpos

/-- Inserting a repayment of nothing into a run that leaves the debt alone from
there on leaves everything but this debt, and the events of all other calls.
Unless the debt overflows then, the account owes no more than without the
repayment, and less by less than what a unit has grown to since and a unit. It
owes the same if there was no fraction to cut or no interest since. -/
theorem Market.Reachable.repay_zero_cuts_fraction (hm : m.Reachable) {payer : AccountId}
    {between rebased plain : Market} {before after : List Call} {earlier receipt later : List Event}
    (hbefore : m.run before = .ok (between, earlier))
    (hrepay : between.perform (.repay payer account 0 now) = .ok (rebased, receipt))
    (hafter : between.run after = .ok (plain, later))
    (hcalls : ∀ call ∈ after, call.debtor? ≠ some account) :
    m.run (before ++ after) = .ok (plain, earlier ++ later) ∧
    ∃ final, m.run (before ++ .repay payer account 0 now :: after) =
        .ok (final, earlier ++ (receipt ++ later)) ∧
      plain.SameBut account final ∧
      (final.owed account = .error .overflow ∨
        ∃ o o', final.owed account = .ok o' ∧ plain.owed account = .ok o ∧ o' ≤ o ∧
          (o.toNat - o'.toNat) * between.borrowIndex.mantissa.toNat <
            between.borrowIndex.mantissa.toNat + plain.borrowIndex.mantissa.toNat ∧
          (between.debtFraction account = 0 ∨ plain.borrowIndex = between.borrowIndex →
            o' = o)) := by
  obtain ⟨owed, howed, rfl⟩ := perform_repay_zero hrepay
  obtain ⟨final, hfinal, hsame⟩ :=
    (SameBut.setDebt_self between account owed).run hcalls hafter
  have hwith := run_append hbefore
    (run_cons_eq_ok.mpr ⟨_, receipt, later, hrepay, hfinal, rfl⟩)
  refine ⟨run_append hbefore hafter, final, hwith, hsame, ?_⟩
  have hbetween := (hm.run hbefore).indexed
  have hplain := ((hm.run hbefore).run hafter).indexed
  cases ho' : final.owed account with
  | error e =>
      -- indices are positive, so a debt that cannot be computed has overflowed
      left
      by_contra hne
      exact (hm.run hwith).indexed.avoids_owed (fun heq => hne (congrArg _ heq)) ho'
  | ok o' =>
      right
      obtain ⟨o, ho, hless⟩ := hbetween.owed_rebased hplain howed
        (debt_congr (get?_debts_of_run hcalls hafter)) hsame.borrowIndex_eq
        (debt_congr (get?_debts_of_run hcalls hfinal)) ho'
      exact ⟨o, o', rfl, ho, hless⟩

namespace Market

/-- A borrower of 1500 units who owes half a unit more than 1501. -/
def fractionSample : Market :=
  { sample with
    cash := .ofUInt64 999_998_500
    totalBorrows := .ofUInt64 1501
    totalReserves := 0
    debts := Registry.ofList [(⟨"bob"⟩, ⟨.ofUInt64 1500, 1⟩)] }

theorem fractionSample_reachable : Reachable fractionSample := by
  have hrun : (do
      let made ← Market.make sample.id .vanilla sample.rateModel 1 0
      let created ← made.withReserveFactor sample.reserveFactor
      let ran ← created.run [.mint ⟨"alice"⟩ (.ofUInt64 1_000_000_000) false 0,
        .borrow ⟨"bob"⟩ (.ofUInt64 1500) 0, .accrue 1000]
      return ran.1) = .ok fractionSample := by rfl
  simp only [bind_eq_ok, pure_eq_ok, Prod.exists] at hrun
  obtain ⟨made, hmake, created, hcreated, m, events, hrun, rfl⟩ := hrun
  exact (Reachable.created (.withReserveFactor (.make hmake) hcreated)).run hrun

/-- Where somebody repays nothing before more interest accrues, the borrower owes
a unit less at the end. -/
theorem repay_zero_forgives : ∃ plain final : Market, ∃ events events',
    fractionSample.Reachable ∧ fractionSample.hasDebt ⟨"bob"⟩ = true ∧
      fractionSample.run [.accrue 2000] = .ok (plain, events) ∧
      fractionSample.run [.repay ⟨"carol"⟩ ⟨"bob"⟩ 0 1000, .accrue 2000] =
        .ok (final, events') ∧
      plain.owed ⟨"bob"⟩ = .ok (.ofUInt64 1503) ∧ final.owed ⟨"bob"⟩ = .ok (.ofUInt64 1502) := by
  have hrun : (do
      let plain ← fractionSample.run [.accrue 2000]
      let final ← fractionSample.run [.repay ⟨"carol"⟩ ⟨"bob"⟩ 0 1000, .accrue 2000]
      return (← plain.1.owed ⟨"bob"⟩, ← final.1.owed ⟨"bob"⟩)) =
      .ok (.ofUInt64 1503, .ofUInt64 1502) := by rfl
  simp only [bind_eq_ok, pure_eq_ok, liftM_market_eq_ok, Prod.exists, Prod.mk.injEq] at hrun
  obtain ⟨plain, events, hplain, final, events', hfinal, o, ho, o', ho', rfl, rfl⟩ := hrun
  exact ⟨plain, final, events, events', fractionSample_reachable, rfl, hplain, hfinal, ho, ho'⟩

/-- That is all that can be lost there, and nobody else owes anything else. -/
theorem fractionSample_repay_zero : ∃ plain final : Market, ∃ events events',
    fractionSample.run [.accrue 2000] = .ok (plain, events) ∧
      fractionSample.run [.repay ⟨"carol"⟩ ⟨"bob"⟩ 0 1000, .accrue 2000] =
        .ok (final, events') ∧
      plain.SameBut ⟨"bob"⟩ final ∧
      ∃ o o', plain.owed ⟨"bob"⟩ = .ok o ∧ final.owed ⟨"bob"⟩ = .ok o' ∧ o' ≤ o ∧
        (o.toNat - o'.toNat) * fractionSample.borrowIndex.mantissa.toNat <
          fractionSample.borrowIndex.mantissa.toNat + plain.borrowIndex.mantissa.toNat := by
  have hbefore : fractionSample.run [] = .ok (fractionSample, []) := rfl
  obtain ⟨rebased, receipt, hrepay⟩ : ∃ rebased receipt,
      fractionSample.perform (.repay ⟨"carol"⟩ ⟨"bob"⟩ 0 1000) = .ok (rebased, receipt) :=
    ⟨_, _, rfl⟩
  obtain ⟨plain, later, hafter⟩ : ∃ plain later,
      fractionSample.run [.accrue 2000] = .ok (plain, later) := ⟨_, _, rfl⟩
  have hcalls : ∀ call ∈ [Call.accrue 2000], call.debtor? ≠ some ⟨"bob"⟩ := by decide
  obtain ⟨hplain, final, hfinal, hsame, howed⟩ :=
    fractionSample_reachable.repay_zero_cuts_fraction hbefore hrepay hafter hcalls
  rcases howed with hoverflow | ⟨o, o', ho', ho, hle, hless, -⟩
  · have hcomputed : (do
        let final ← fractionSample.run [.repay ⟨"carol"⟩ ⟨"bob"⟩ 0 1000, .accrue 2000]
        final.1.owed ⟨"bob"⟩) = Except.ok (.ofUInt64 1502) := by rfl
    obtain ⟨⟨final', _⟩, hfinal', howed'⟩ := bind_eq_ok.mp hcomputed
    cases hfinal.symm.trans hfinal'
    cases hoverflow.symm.trans (liftM_market_eq_ok.mp howed')
  · exact ⟨plain, final, _, _, hplain, hfinal, hsame, o, o', ho, ho', hle, hless⟩

end Market

end MoneyMarket
