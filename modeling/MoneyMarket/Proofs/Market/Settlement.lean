import MoneyMarket.Proofs.Market.Registered

/-! # What repaying and seizing change

A repayment writes a debt down for cash, and a seizure moves tokens with what
is registered of them. The two do not touch the same figures, so neither
undoes the other where both happen to one market, and neither touches the
terms of the market.
-/

namespace MoneyMarket

open Market

variable {m m' m'' : Market} {payer borrower liquidator source target : AccountId}
  {amount tokens : Amount} {now : UInt64}

/-! ## What markets have in common -/

namespace Market

/-- The same cash and the same debts. -/
structure SameDebts (m m' : Market) : Prop where
  cash : m'.cash = m.cash
  borrows : m'.totalBorrows = m.totalBorrows
  debts : m'.debts = m.debts

/-- The same tokens, and the same of them registered. -/
structure SameTokens (m m' : Market) : Prop where
  supply : m'.totalSupply = m.totalSupply
  balances : m'.balances = m.balances
  kind : m'.kind = m.kind

/-- The market with the cash, the debts and the holdings of another. -/
def withAccountsOf (m' m : Market) : Market :=
  { m' with
    cash := m.cash
    totalBorrows := m.totalBorrows
    debts := m.debts
    balances := m.balances
    kind := m.kind }

/-- Nothing but cash, debts and holdings differs. -/
structure SameTerms (m m' : Market) : Prop where
  rest : m'.withAccountsOf m = m
  version : m'.version = m.version
  cap : m'.collateralCap? = m.collateralCap?

theorem SameTerms.trans (hfirst : m.SameTerms m') (hsecond : m'.SameTerms m'') :
    m.SameTerms m'' where
  rest := (congrArg (withAccountsOf · m) hsecond.rest).trans hfirst.rest
  version := hsecond.version.trans hfirst.version
  cap := hsecond.cap.trans hfirst.cap

/-! ## Repaying -/

/-- An amount of a debt is repaid: the rest is owed as of the current index,
and nothing else is owed that was not before. -/
structure Repays (m m' : Market) (borrower : AccountId) (amount : Amount) : Prop where
  cash : m'.cash.toNat = m.cash.toNat + amount.toNat
  borrows : m.totalBorrows.toNat = m'.totalBorrows.toNat + amount.toNat
  debt : ∃ owed rest, m.owed borrower = .ok owed ∧ owed.toNat = rest.toNat + amount.toNat ∧
    m'.debts.get? borrower = if rest = 0 then none else some ⟨rest, m.borrowIndex⟩
  others : ∀ other, borrower ≠ other → m'.debts.get? other = m.debts.get? other

theorem Repays.of_sameDebts (hrepays : m.Repays m' borrower amount) (hsame : m'.SameDebts m'') :
    m.Repays m'' borrower amount := by
  obtain ⟨hcash, hborrows, hdebts⟩ := hsame
  refine ⟨?_, ?_, ?_, ?_⟩
  · rw [hcash]
    exact hrepays.cash
  · rw [hborrows]
    exact hrepays.borrows
  · rw [hdebts]
    exact hrepays.debt
  · rw [hdebts]
    exact hrepays.others

/-- The largest amount stands for all that is owed. -/
theorem planRepay_repayAmount {p : RepayPlan}
    (hp : m.planRepay payer borrower amount now = .ok p) :
    ∃ owed, m.owed borrower = .ok owed ∧
      p.repayAmount = if amount = .largest then owed else amount := by
  simp only [planRepay, bind_eq_ok, liftM_market_eq_ok, pure_eq_ok] at hp
  obtain ⟨-, -, owed, howed, -, -, -, -, -, -, rfl⟩ := hp
  exact ⟨owed, howed, rfl⟩

theorem repays_settleRepay {p : RepayPlan} (hp : m.planRepay payer borrower amount now = .ok p) :
    m.Repays (m.settleRepay p).1 borrower p.repayAmount := by
  have hfits := planRepay_fits hp
  obtain ⟨owed, howed, -⟩ := planRepay_repayAmount hp
  have hdebts : ∀ other, (m.settleRepay p).1.debts.get? other =
      if borrower = other then if p.debt = 0 then none else some ⟨p.debt, m.borrowIndex⟩
      else m.debts.get? other := by
    intro other
    rw [← hfits.borrower_eq]
    exact get?_setDebt ..
  refine ⟨hfits.cash, hfits.borrows, ⟨owed, p.debt, howed, ?_, ?_⟩, ?_⟩
  · rw [owed_eq_ok howed]
    exact hfits.debt
  · rw [hdebts, if_pos rfl]
  · intro other hne
    rw [hdebts, if_neg hne]

theorem sameTokens_settleRepay (m : Market) (p : RepayPlan) : m.SameTokens (m.settleRepay p).1 :=
  ⟨rfl, rfl, rfl⟩

theorem sameTerms_settleRepay (m : Market) (p : RepayPlan) : m.SameTerms (m.settleRepay p).1 :=
  ⟨rfl, rfl, rfl⟩

/-! ## Seizing -/

/-- Tokens move from one account to another, and as many of them count. -/
structure Seizes (m m' : Market) (source target : AccountId) (tokens : Amount) : Prop where
  held : tokens ≤ m.collateralTokens source
  balances : ∀ account,
    (m'.tokenBalance account).toNat + (if source = account then tokens.toNat else 0) =
      (m.tokenBalance account).toNat + if target = account then tokens.toNat else 0
  collateral : ∀ account,
    (m'.collateralTokens account).toNat + (if source = account then tokens.toNat else 0) =
      (m.collateralTokens account).toNat + if target = account then tokens.toNat else 0
  supply : m'.totalSupply = m.totalSupply
  total : m'.totalCollateralTokens? = m.totalCollateralTokens?

theorem Seizes.of_sameTokens (hsame : m.SameTokens m')
    (hseizes : m'.Seizes m'' source target tokens) : m.Seizes m'' source target tokens := by
  obtain ⟨hsupply, hbalances, hkind⟩ := hsame
  have hbalance : m'.tokenBalance = m.tokenBalance := by
    unfold tokenBalance
    rw [hbalances]
  have hcollateral : m'.collateralTokens = m.collateralTokens := by
    unfold collateralTokens
    rw [hbalance, hkind]
  refine ⟨?_, ?_, ?_, ?_, ?_⟩
  · rw [← hcollateral]
    exact hseizes.held
  · rw [← hbalance]
    exact hseizes.balances
  · rw [← hcollateral]
    exact hseizes.collateral
  · exact hseizes.supply.trans hsupply
  · rw [hseizes.total, totalCollateralTokens?, totalCollateralTokens?, hkind]

/-- A seizure leaves the number of registered tokens. -/
theorem total_of_seizeCollateral {removed : Amount} {plan : Option CollateralPlan}
    (hplan : m.seizeCollateral source target tokens = .ok (removed, plan)) :
    (m.kind.commit plan).ledger?.map CollateralLedger.total =
      m.kind.ledger?.map CollateralLedger.total := by
  rw [MarketKind.ledger?_commit]
  unfold seizeCollateral at hplan
  cases hledger : m.kind.ledger? with
  | none => rfl
  | some ledger =>
      simp only [hledger, bind_eq_ok, pure_eq_ok, Prod.mk.injEq] at hplan
      obtain ⟨moved, hmove, -, rfl⟩ := hplan
      obtain ⟨-, htotal, -⟩ := CollateralLedger.move_eq_ok hmove
      split
      · rfl
      · exact congrArg some (Amount.ext htotal)

theorem seizes_settleMove {p : MovePlan}
    (hp : m.planSeizure liquidator borrower tokens now = .ok p) :
    m.Seizes (m.settleMove p).1 borrower liquidator tokens := by
  obtain ⟨hfits, hplan⟩ := planMove_fits (planSeizure_eq_ok.mp hp).2
  have hcollateral := collateralTokens_settleMove_of_seizure hfits hplan
  refine ⟨?_, tokenBalance_settleMove_add hfits, hcollateral, ?_, ?_⟩
  · have hsource := hcollateral borrower
    rw [if_pos rfl, if_neg hfits.ne.symm] at hsource
    exact Amount.le_def.mpr (by omega)
  · rw [settleMove_fst]
  · rw [settleMove_fst]
    exact total_of_seizeCollateral hplan

theorem sameDebts_settleMove (m : Market) (p : MovePlan) : m.SameDebts (m.settleMove p).1 := by
  rw [settleMove_fst]
  exact ⟨rfl, rfl, rfl⟩

theorem sameTerms_settleMove (m : Market) (p : MovePlan) : m.SameTerms (m.settleMove p).1 := by
  rw [settleMove_fst]
  refine ⟨rfl, ?_, ?_⟩
  · change (m.kind.commit p.collateral).version = m.kind.version
    cases m.kind <;> cases p.collateral <;> rfl
  · change (m.kind.commit p.collateral).ledger?.map CollateralLedger.cap = _
    unfold collateralCap?
    cases m.kind <;> cases p.collateral <;> rfl

end Market

end MoneyMarket
