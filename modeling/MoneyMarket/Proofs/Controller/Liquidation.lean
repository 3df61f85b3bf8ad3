import MoneyMarket.Proofs.Controller.Dealings

/-! # Successful liquidations

A successful liquidation is a repayment in one market and then a seizure in
another one or in the same. Both are planned before either is settled; that
the repayment is settled first makes no difference to the seizure.
-/

namespace MoneyMarket

open Controller Market

variable {α : Type} {c c' : Controller} {market marketBorrowed marketCollateral : MarketId}
  {liquidator borrower : AccountId} {repayAmount : Amount} {now : UInt64} {prices : Prices}
  {liquidation : Liquidation}

namespace Operation

theorem reads_requireFresh (market : MarketId) (now : UInt64) :
    (requireFresh market now).Reads := by
  apply reads_get.bind
  intro c
  apply (reads_liftM _).bind
  intro listing
  split
  · exact reads_throw _
  · exact reads_pure _

theorem runOn_requireFresh_bind_eq_ok {f : Unit → Operation α} {a : α} :
    (requireFresh market now >>= f).runOn c = (.ok a, c') ↔
      ∃ listing, c.listed? market = some listing ∧ listing.state.accrualTimestamp = now ∧
        (f ()).runOn c = (.ok a, c') := by
  simp only [requireFresh, bind_assoc, runOn_get_bind, runOn_liftM_bind_eq_ok, listed_eq_ok]
  apply exists_congr
  intro listing
  apply and_congr_right
  intro _
  by_cases hfresh : listing.state.accrualTimestamp = now
  · simp [isFresh, hfresh]
  · simp [isFresh, hfresh]

/-- Both markets are listed before and after the repayment, so that settling
cannot fail. -/
theorem atomic_liquidate :
    (liquidate liquidator borrower marketBorrowed marketCollateral repayAmount now
      prices).Atomic := by
  unfold liquidate
  apply atomic_guard
  apply atomic_guard
  apply (reads_requireFresh _ _).bind_atomic
  intro _
  apply (reads_requireFresh _ _).bind_atomic
  intro _
  apply (reads_passGate _).bind_atomic
  intro _
  apply (reads_passGate _).bind_atomic
  intro _
  apply (reads_planOn _).bind_atomic
  intro repayment
  apply reads_get.bind_atomic
  intro _
  apply (reads_liftM _).bind_atomic
  intro tokens
  apply (reads_liftM _).bind_atomic
  intro _
  apply atomic_guard
  apply (reads_passGate _).bind_atomic
  -- nothing was written up to the plan of the seizure
  intro _ c e c' hrun
  rcases runOn_bind_eq_error.mp hrun with herror | ⟨seizure, c₁, hseizure, hsettle⟩
  · exact (reads_planOn _).eq herror
  obtain ⟨collateral, hcollateral, -, rfl⟩ := runOn_planOn_eq_ok.mp hseizure
  rcases runOn_bind_eq_error.mp hsettle with herror | ⟨repaid, c₂, hrepaid, hseize⟩
  · exact atomic_onMarket _ _ _ _ herror
  obtain ⟨borrowed, hborrowed, -, rfl⟩ := runOn_onMarket_eq_ok.mp hrepaid
  have hlisted : ∃ listing, (c₁.setState marketBorrowed borrowed
      (borrowed.state.settleRepay repayment).1).listed? marketCollateral = some listing := by
    rw [listed?_setState _ hborrowed]
    split
    · exact ⟨_, rfl⟩
    · exact ⟨collateral, hcollateral⟩
  obtain ⟨listing, hlisted⟩ := hlisted
  simp only [runOn_bind, runOn_onMarket_of_listed hlisted, runOn_pure, Prod.mk.injEq,
    reduceCtorEq, false_and] at hseize

theorem planSeizure_settleRepay (m : Market) (repayment : RepayPlan)
    (liquidator borrower : AccountId) (tokens : Amount) (now : UInt64) :
    (m.settleRepay repayment).1.planSeizure liquidator borrower tokens now =
      m.planSeizure liquidator borrower tokens now := rfl

/-- The repayment, and the seizure in the controller after it. -/
theorem liquidate_eq_ok
    (hliquidate : (liquidate liquidator borrower marketBorrowed marketCollateral repayAmount now
      prices).runOn c = (.ok liquidation, c')) :
    liquidator ≠ borrower ∧ repayAmount ≠ 0 ∧ repayAmount ≠ .largest ∧
      c.liquidationVerdict marketBorrowed marketCollateral borrower repayAmount prices =
        .ok .allow ∧
      ∃ borrowed repayment repaid collateral seizure,
        c.listed? marketBorrowed = some borrowed ∧
        borrowed.state.planRepay liquidator borrower repayAmount now = .ok repayment ∧
        liquidation.repayAmount = repayment.repayAmount ∧
        repaid = c.setState marketBorrowed borrowed (borrowed.state.settleRepay repayment).1 ∧
        c.seizeTokens marketBorrowed marketCollateral repayment.repayAmount prices =
          .ok liquidation.seizeTokens ∧
        repaid.listed? marketCollateral = some collateral ∧
        collateral.state.planSeizure liquidator borrower liquidation.seizeTokens now =
          .ok seizure ∧
        c' = repaid.setState marketCollateral collateral
          (collateral.state.settleMove seizure).1 := by
  simp only [liquidate, runOn_guard_eq_ok, runOn_requireFresh_bind_eq_ok,
    runOn_passGate_bind_eq_ok, runOn_planOn_bind_eq_ok, runOn_get_bind, runOn_liftM_bind_eq_ok,
    listed_eq_ok, not_or] at hliquidate
  obtain ⟨hne, ⟨hzero, hlargest⟩, -, -, -, -, -, -, hverdict, -, borrowed, repayment, hborrowed,
    hrepayment, tokens, htokens, -, -, -, -, planned, seizure, hplanned, hseizure, hliquidate⟩ :=
    hliquidate
  simp only [runOn_bind_eq_ok, runOn_onMarket_eq_ok, runOn_pure_eq_ok] at hliquidate
  obtain ⟨-, -, ⟨_, hsame, -, rfl⟩, -, -, ⟨collateral, hcollateral, -, rfl⟩, rfl, rfl⟩ := hliquidate
  cases hborrowed.symm.trans hsame
  refine ⟨hne, hzero, hlargest, hverdict, borrowed, repayment, _, collateral, seizure, hborrowed,
    hrepayment, rfl, rfl, htokens, hcollateral, ?_, rfl⟩
  -- the seizure was planned before the repayment was settled
  rw [listed?_setState _ hborrowed] at hcollateral
  split at hcollateral
  next heq =>
    cases hcollateral
    cases heq
    cases hborrowed.symm.trans hplanned
    exact (planSeizure_settleRepay ..).trans hseizure
  next =>
    cases hcollateral.symm.trans hplanned
    exact hseizure

/-- A liquidation is a repayment and a seizure. -/
theorem performs_of_liquidate
    (hliquidate : (liquidate liquidator borrower marketBorrowed marketCollateral repayAmount now
      prices).runOn c = (.ok liquidation, c')) :
    ∃ c₁, c.Performs marketBorrowed (.repay liquidator borrower repayAmount now) c₁ ∧
      c₁.Performs marketCollateral
        (.seize liquidator borrower liquidation.seizeTokens now) c' := by
  obtain ⟨-, -, -, -, borrowed, repayment, repaid, collateral, seizure, hborrowed, hrepayment, -,
    hrepaid, -, hcollateral, hseizure, hc'⟩ := liquidate_eq_ok hliquidate
  refine ⟨repaid, ⟨borrowed, _, (borrowed.state.settleRepay repayment).2, hborrowed, ?_, hrepaid⟩,
    ⟨collateral, _, (collateral.state.settleMove seizure).2, hcollateral, ?_, hc'⟩⟩
  · exact perform_repay_eq_ok.mpr ⟨repayment, hrepayment, rfl, rfl⟩
  · exact perform_seize_eq_ok.mpr ⟨seizure, hseizure, rfl, rfl⟩

end Operation

end MoneyMarket
