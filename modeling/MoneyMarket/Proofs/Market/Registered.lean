import MoneyMarket.Proofs.Market.Plans

/-! # Collateral tokens after an operation

What each operation does to the tokens that count as collateral, of every
account. Tokens that leave an account come out of its collateral as far as
they are not covered by tokens that do not count, on every kind of market:
where nothing is registered all tokens count, and nothing covers them.
-/

namespace MoneyMarket

/-- Planning to change nothing is the same as having no plan. -/
theorem CollateralLedger.planned_unless_isEmpty (l : CollateralLedger) (p : CollateralPlan)
    (account : AccountId) :
    (if p.isEmpty then none else some p).elim (l.tokensOf account) (l.planned · account) =
      l.planned p account := by
  split
  next hempty => exact (planned_of_isEmpty hempty).symm
  next => rfl

namespace Market

variable {m m' : Market} {account other source target : AccountId} {tokens : Amount}

/-- Collateral after a plan was committed or was none. -/
theorem collateralTokens_of_commit {plan : Option CollateralPlan}
    (hkind : m'.kind = m.kind.commit plan) (account : AccountId) :
    m'.collateralTokens account =
      m.kind.ledger?.elim (m'.tokenBalance account) fun ledger =>
        plan.elim (ledger.tokensOf account) (ledger.planned · account) := by
  rw [collateralTokens_eq, hkind, MarketKind.ledger?_commit]
  cases m.kind.ledger? with
  | none => rfl
  | some ledger =>
      cases plan with
      | none => rfl
      | some plan => exact CollateralLedger.tokensOf_commit ledger plan account

/-- Where nothing is registered all tokens count. -/
theorem collateralTokens_of_ledger?_eq_none (hledger : m.kind.ledger? = none)
    (account : AccountId) : m.collateralTokens account = m.tokenBalance account := by
  rw [collateralTokens_eq, hledger]
  rfl

theorem collateralTokens_of_ledger?_eq_some {ledger : CollateralLedger}
    (hledger : m.kind.ledger? = some ledger) (account : AccountId) :
    m.collateralTokens account = ledger.tokensOf account := by
  rw [collateralTokens_eq, hledger]
  rfl

/-- The tokens that leave the collateral when some tokens leave the account. -/
def uncovered (m : Market) (account : AccountId) (tokens : Amount) : Nat :=
  tokens.toNat - ((m.tokenBalance account).toNat - (m.collateralTokens account).toNat)

/-! ## Balances -/

theorem tokenBalance_settleMint (m : Market) (p : MintPlan) (other : AccountId) :
    (m.settleMint p).1.tokenBalance other =
      if p.minter = other then p.balance else m.tokenBalance other := by
  rw [settleMint_fst]
  exact Balances.of_set ..

theorem tokenBalance_settleRedeem (m : Market) (p : RedeemPlan) (other : AccountId) :
    (m.settleRedeem p).1.tokenBalance other =
      if p.redeemer = other then p.balance else m.tokenBalance other := by
  rw [settleRedeem_fst]
  exact Balances.of_set ..

theorem tokenBalance_settleMove (m : Market) (p : MovePlan) (other : AccountId) :
    (m.settleMove p).1.tokenBalance other =
      if p.target = other then p.targetTokens
      else if p.source = other then p.sourceTokens
      else m.tokenBalance other := by
  rw [settleMove_fst]
  change Balances.of _ _ = _
  rw [Balances.of_set, Balances.of_set]
  rfl

theorem tokenBalance_settleMove_add {p : MovePlan} (hp : p.Fits m source target tokens)
    (other : AccountId) :
    ((m.settleMove p).1.tokenBalance other).toNat + (if source = other then tokens.toNat else 0) =
      (m.tokenBalance other).toNat + if target = other then tokens.toNat else 0 := by
  have hsource := hp.sourceTokens
  have htarget := hp.targetTokens
  rw [tokenBalance_settleMove, hp.source_eq, hp.target_eq]
  by_cases heq : target = other
  · have hne : source ≠ other := heq ▸ hp.ne
    rw [if_pos heq, if_pos heq, if_neg hne, htarget, heq]
    rfl
  · rw [if_neg heq, if_neg heq]
    split
    next heq => rw [← heq, hsource]; rfl
    next => rfl

/-! ## Supplying and redeeming -/

/-- Of the new tokens some count. -/
theorem collateralTokens_settleMint {p : MintPlan} {minter : AccountId} {amount : Amount}
    {isMember : Bool} (hp : p.Fits m minter amount isMember) :
    ∃ counted ≤ p.mintTokens.toNat, ∀ other,
      ((m.settleMint p).1.collateralTokens other).toNat = (m.collateralTokens other).toNat +
        if minter = other then counted else 0 := by
  have hkind : (m.settleMint p).1.kind = m.kind.commit p.collateral := by rw [settleMint_fst]
  have hcollateral := hp.collateral
  simp only [collateralTokens_of_commit hkind]
  unfold mintCollateral at hcollateral
  cases hledger : m.kind.ledger? with
  | none =>
      refine ⟨p.mintTokens.toNat, le_rfl, ?_⟩
      intro other
      rw [collateralTokens_of_ledger?_eq_none hledger, Option.elim_none, tokenBalance_settleMint,
        hp.minter_eq]
      split
      next heq => rw [hp.balance, heq]
      next => rfl
  | some ledger =>
      simp only [hledger] at hcollateral
      simp only [collateralTokens_of_ledger?_eq_some hledger, Option.elim_some]
      split at hcollateral
      next =>
        simp only [bind_eq_ok, pure_eq_ok] at hcollateral
        obtain ⟨plan, hregister, hplan⟩ := hcollateral
        rw [← hplan]
        exact ⟨_, Nat.min_le_left .., (CollateralLedger.register_eq_ok hregister).2⟩
      next =>
        rw [← pure_eq_ok.mp hcollateral]
        exact ⟨0, Nat.zero_le _, fun other => by simp⟩

/-- Tokens that count go last. -/
theorem releaseCollateral_eq_ok {removed : Amount} {plan : Option CollateralPlan}
    (hrelease : m.releaseCollateral account tokens = .ok (removed, plan)) :
    removed.toNat = m.uncovered account tokens ∧
      ∀ ledger, m.kind.ledger? = some ledger → ∀ other,
        (ledger.tokensOf other).toNat =
          (plan.elim (ledger.tokensOf other) (ledger.planned · other)).toNat +
            if account = other then removed.toNat else 0 := by
  unfold releaseCollateral at hrelease
  unfold uncovered
  cases hledger : m.kind.ledger? with
  | none =>
      simp only [hledger, pure_eq_ok, Prod.mk.injEq] at hrelease
      rw [collateralTokens_of_ledger?_eq_none hledger, Nat.sub_self, Nat.sub_zero, hrelease.1]
      exact ⟨rfl, fun ledger h => by cases h⟩
  | some ledger =>
      simp only [hledger, bind_eq_ok, pure_eq_ok, Prod.mk.injEq] at hrelease
      obtain ⟨released, hreleased, rfl, rfl⟩ := hrelease
      rw [collateralTokens_of_ledger?_eq_some hledger]
      refine ⟨rfl, ?_⟩
      intro ledger' h other
      cases h
      rw [CollateralLedger.planned_unless_isEmpty]
      exact (CollateralLedger.release_eq_ok hreleased).2.2 other

theorem collateralTokens_settleRedeem {p : RedeemPlan} {redeemer : AccountId}
    (hp : p.Fits m redeemer) :
    p.collateralTokensRemoved.toNat = m.uncovered redeemer p.redeemTokens ∧
      ∀ other, (m.collateralTokens other).toNat =
        ((m.settleRedeem p).1.collateralTokens other).toNat +
          if redeemer = other then p.collateralTokensRemoved.toNat else 0 := by
  have hkind : (m.settleRedeem p).1.kind = m.kind.commit p.collateral := by rw [settleRedeem_fst]
  obtain ⟨hremoved, hledgers⟩ := releaseCollateral_eq_ok hp.collateral
  refine ⟨hremoved, ?_⟩
  intro other
  rw [collateralTokens_of_commit hkind]
  cases hledger : m.kind.ledger? with
  | none =>
      have hall := collateralTokens_of_ledger?_eq_none hledger
      rw [uncovered, hall, Nat.sub_self, Nat.sub_zero] at hremoved
      rw [hall, Option.elim_none, tokenBalance_settleRedeem, hp.redeemer_eq, hremoved]
      split
      next heq => rw [← heq, hp.balance]
      next => rfl
  | some ledger =>
      rw [collateralTokens_of_ledger?_eq_some hledger]
      exact hledgers ledger hledger other

/-! ## Moving tokens -/

/-- A transfer takes tokens out of the collateral of the source like a
redemption does, and of these some count for the target. -/
theorem collateralTokens_settleMove_of_transfer {p : MovePlan} {targetIsMember : Bool}
    (hp : p.Fits m source target tokens)
    (hcollateral : m.transferCollateral source target tokens targetIsMember =
      .ok (p.collateralTokensRemoved, p.collateral)) :
    p.collateralTokensRemoved.toNat = m.uncovered source tokens ∧
      ∃ counted ≤ p.collateralTokensRemoved.toNat, ∀ other,
        ((m.settleMove p).1.collateralTokens other).toNat +
            (if source = other then p.collateralTokensRemoved.toNat else 0) =
          (m.collateralTokens other).toNat + if target = other then counted else 0 := by
  have hkind : (m.settleMove p).1.kind = m.kind.commit p.collateral := by rw [settleMove_fst]
  simp only [collateralTokens_of_commit hkind]
  unfold transferCollateral at hcollateral
  unfold uncovered
  cases hledger : m.kind.ledger? with
  | none =>
      simp only [hledger, pure_eq_ok, Prod.mk.injEq] at hcollateral
      have hall := collateralTokens_of_ledger?_eq_none hledger
      simp only [hall, Nat.sub_self, Nat.sub_zero, Option.elim_none, ← hcollateral.1]
      exact ⟨trivial, tokens.toNat, le_rfl, tokenBalance_settleMove_add hp⟩
  | some ledger =>
      simp only [hledger, bind_eq_ok] at hcollateral
      obtain ⟨released, hrelease, hcollateral⟩ := hcollateral
      obtain ⟨-, -, hreleased⟩ := CollateralLedger.release_eq_ok hrelease
      simp only [CollateralLedger.planned_unchanged] at hreleased
      -- what the source releases registers again if the target is a member
      simp only [collateralTokens_of_ledger?_eq_some hledger, Option.elim_some]
      cases targetIsMember with
      | true =>
          simp only [if_true, bind_eq_ok, pure_eq_ok, Prod.mk.injEq] at hcollateral
          obtain ⟨registered, hregister, hremoved, hplan⟩ := hcollateral
          obtain ⟨-, hcounted⟩ := CollateralLedger.register_eq_ok hregister
          simp only [← hremoved, ← hplan, CollateralLedger.planned_unless_isEmpty, hcounted]
          refine ⟨rfl, _, Nat.min_le_left _ (ledger.room released).toNat, ?_⟩
          intro other
          rw [hreleased other]
          omega
      | false =>
          simp only [Bool.false_eq_true, if_false, pure_bind, pure_eq_ok, Prod.mk.injEq]
            at hcollateral
          obtain ⟨hremoved, hplan⟩ := hcollateral
          simp only [← hremoved, ← hplan, CollateralLedger.planned_unless_isEmpty]
          refine ⟨rfl, 0, Nat.zero_le _, ?_⟩
          intro other
          rw [hreleased other, ite_self]
          rfl

/-- The source has as much less collateral as is taken of it. -/
theorem collateralTokens_source_of_transfer {p : MovePlan} {targetIsMember : Bool}
    (hp : p.Fits m source target tokens)
    (hcollateral : m.transferCollateral source target tokens targetIsMember =
      .ok (p.collateralTokensRemoved, p.collateral)) :
    (m.collateralTokens source).toNat =
      ((m.settleMove p).1.collateralTokens source).toNat + p.collateralTokensRemoved.toNat := by
  obtain ⟨-, counted, -, hall⟩ := collateralTokens_settleMove_of_transfer hp hcollateral
  have hsource := hall source
  rw [if_pos rfl, if_neg (Ne.symm hp.ne), Nat.add_zero] at hsource
  exact hsource.symm

/-- Seized tokens count for the target as they did for the source. -/
theorem collateralTokens_settleMove_of_seizure {p : MovePlan}
    (hp : p.Fits m source target tokens)
    (hcollateral : m.seizeCollateral source target tokens =
      .ok (p.collateralTokensRemoved, p.collateral)) (other : AccountId) :
    ((m.settleMove p).1.collateralTokens other).toNat +
        (if source = other then tokens.toNat else 0) =
      (m.collateralTokens other).toNat + if target = other then tokens.toNat else 0 := by
  have hkind : (m.settleMove p).1.kind = m.kind.commit p.collateral := by rw [settleMove_fst]
  rw [collateralTokens_of_commit hkind]
  unfold seizeCollateral at hcollateral
  cases hledger : m.kind.ledger? with
  | none =>
      rw [collateralTokens_of_ledger?_eq_none hledger, Option.elim_none]
      exact tokenBalance_settleMove_add hp other
  | some ledger =>
      simp only [hledger, bind_eq_ok, pure_eq_ok, Prod.mk.injEq] at hcollateral
      obtain ⟨plan, hmove, -, hplan⟩ := hcollateral
      rw [collateralTokens_of_ledger?_eq_some hledger, Option.elim_some, ← hplan,
        CollateralLedger.planned_unless_isEmpty]
      exact (CollateralLedger.move_eq_ok hmove).2.2 other

/-! ## Registering and unregistering -/

/-- Registering makes some of the tokens count that did not. -/
theorem collateralTokens_settleRegistration_of_register {plan : CollateralPlan}
    (hplan : m.planRegister account = .ok (some plan)) :
    ∃ counted ≤ (m.tokenBalance account).toNat - (m.collateralTokens account).toNat, ∀ other,
      ((m.settleRegistration plan).1.collateralTokens other).toNat =
        (m.collateralTokens other).toNat + if account = other then counted else 0 := by
  have hkind : (m.settleRegistration plan).1.kind = m.kind.commit (some plan) := by
    rw [settleRegistration, commitCollateral_eq]
  simp only [collateralTokens_of_commit hkind]
  unfold planRegister at hplan
  cases hledger : m.kind.ledger? with
  | none => simp [hledger] at hplan
  | some ledger =>
      simp only [hledger, bind_eq_ok, pure_eq_ok] at hplan
      obtain ⟨registered, hregister, hsome⟩ := hplan
      split at hsome
      · cases hsome
      · cases hsome
        simp only [collateralTokens_of_ledger?_eq_some hledger, Option.elim_some]
        exact ⟨_, Nat.min_le_left .., (CollateralLedger.register_eq_ok hregister).2⟩

/-- Unregistering makes none of the tokens count. -/
theorem collateralTokens_settleRegistration_of_unregister {plan : CollateralPlan}
    (hplan : m.planUnregister account = .ok (some (plan, tokens))) (other : AccountId) :
    (m.collateralTokens other).toNat =
      ((m.settleRegistration plan).1.collateralTokens other).toNat +
        if account = other then (m.collateralTokens account).toNat else 0 := by
  have hkind : (m.settleRegistration plan).1.kind = m.kind.commit (some plan) := by
    rw [settleRegistration, commitCollateral_eq]
  rw [collateralTokens_of_commit hkind]
  unfold planUnregister at hplan
  cases hledger : m.kind.ledger? with
  | none => simp [hledger] at hplan
  | some ledger =>
      simp only [hledger] at hplan
      split at hplan
      next => simp at hplan
      next =>
        simp only [bind_eq_ok, pure_eq_ok, Option.some.injEq, Prod.mk.injEq] at hplan
        obtain ⟨released, hrelease, rfl, -⟩ := hplan
        simp only [collateralTokens_of_ledger?_eq_some hledger, Option.elim_some]
        exact (CollateralLedger.release_eq_ok hrelease).2.2 other

end Market

end MoneyMarket
