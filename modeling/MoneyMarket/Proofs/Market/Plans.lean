import MoneyMarket.Market.Accrual
import MoneyMarket.Market.Debt
import MoneyMarket.Market.Movement
import MoneyMarket.Market.Registration
import MoneyMarket.Market.Reserves
import MoneyMarket.Proofs.Market.Figures

/-! # Plans and what settling them does

For each operation of a market: the figures that a plan holds, compared with
the market it was made for, and the market that settling it leaves. Everything
that is shown about operations later on rests on these two facts about each.
-/

namespace MoneyMarket

open Market

variable {m : Market} {now : UInt64}

/-! ## Accrual -/

/-- Interest accrues at one factor: on what was borrowed, and on the index. -/
structure Market.Accrual.Fits (a : Accrual) (m : Market) : Prop where
  factor : ∃ factor : Nat,
    a.interestAccumulated.toNat = factor * m.totalBorrows.toNat / 10 ^ 18 ∧
    a.borrowIndex.mantissa.toNat =
      m.borrowIndex.mantissa.toNat + factor * m.borrowIndex.mantissa.toNat / 10 ^ 18
  borrows : a.totalBorrows.toNat = m.totalBorrows.toNat + a.interestAccumulated.toNat
  reserves : a.totalReserves.toNat =
    m.reserveFactor.mantissa.toNat * a.interestAccumulated.toNat / 10 ^ 18 + m.totalReserves.toNat

theorem Market.accrualAt_fits {a : Accrual} (ha : m.accrualAt now = .ok a) : a.Fits m := by
  simp only [accrualAt, guard_eq_ok, bind_eq_ok, liftM_market_eq_ok, pure_eq_ok,
    Wad.mulAmount_eq_ok] at ha
  obtain ⟨-, r, -, -, factor, -, interest, hinterest, borrows, hborrows, reserves, hreserves,
    growth, hgrowth, index, hindex, rfl⟩ := ha
  refine ⟨⟨factor.mantissa.toNat, Wad.mulTruncate_eq_ok hinterest, ?_⟩, ?_, ?_⟩
  · simp only [Wad.add, bind_pure_comp, map_eq_ok, Amount.add_eq_ok] at hindex
    obtain ⟨sum, hsum, rfl⟩ := hindex
    rw [← hsum, Wad.mul_eq_ok hgrowth]
  · exact (Amount.add_eq_ok.mp hborrows).symm
  · exact Wad.mulTruncateAdd_eq_ok hreserves

/-- Booking interest, or having nothing to book. -/
theorem Market.accrue_eq_ok {m' : Market} {event : Option Event}
    (haccrue : m.accrue now = .ok (m', event)) :
    m' = m ∨ ∃ a : Accrual, a.Fits m ∧ m' = m.book now a := by
  unfold accrue at haccrue
  split at haccrue
  · simp only [pure_eq_ok, Prod.mk.injEq] at haccrue
    exact Or.inl haccrue.1.symm
  · simp only [bind_eq_ok, pure_eq_ok, Prod.mk.injEq] at haccrue
    obtain ⟨a, ha, hm', -⟩ := haccrue
    exact Or.inr ⟨a, accrualAt_fits ha, hm'.symm⟩

/-! ## Supplying and redeeming -/

structure MintPlan.Fits (p : MintPlan) (m : Market) (minter : AccountId) (amount : Amount)
    (isMember : Bool) : Prop where
  minter_eq : p.minter = minter
  tokens : p.mintTokens.toNat = amount.toNat * 10 ^ 18 / m.rate
  cash : p.cash.toNat = m.cash.toNat + amount.toNat
  supply : p.totalSupply.toNat = m.totalSupply.toNat + p.mintTokens.toNat
  balance : p.balance.toNat = (m.tokenBalance minter).toNat + p.mintTokens.toNat
  collateral : m.mintCollateral minter p.mintTokens isMember = .ok p.collateral

theorem Market.planMint_fits {p : MintPlan} {minter : AccountId} {amount : Amount}
    {isMember : Bool} (hp : m.planMint minter amount isMember now = .ok p) :
    p.Fits m minter amount isMember := by
  simp only [planMint, bind_eq_ok, liftM_market_eq_ok, pure_eq_ok, Amount.add_eq_ok,
    Amount.mul_eq_ok, Amount.div_eq_ok] at hp
  obtain ⟨-, -, r, hr, scaled, hscaled, tokens, ⟨-, htokens⟩, collateral, hcollateral, cash, hcash,
    supply, hsupply, balance, hbalance, rfl⟩ := hp
  refine ⟨rfl, ?_, hcash.symm, hsupply.symm, hbalance.symm, hcollateral⟩
  rw [← htokens, ← hscaled, exchangeRate_eq_ok hr]
  rfl

theorem Market.settleMint_fst (m : Market) (p : MintPlan) :
    (m.settleMint p).1 =
      { m with
        cash := p.cash
        totalSupply := p.totalSupply
        balances := m.balances.set p.minter p.balance
        kind := m.kind.commit p.collateral } := by
  unfold settleMint
  cases p.collateral with
  | none => rw [MarketKind.commit_none]; rfl
  | some plan =>
      dsimp only
      rw [commitCollateral_eq]
      rfl

structure RedeemPlan.Fits (p : RedeemPlan) (m : Market) (redeemer : AccountId) : Prop where
  redeemer_eq : p.redeemer = redeemer
  /-- No more is paid than the tokens are worth. -/
  payout : p.redeemAmount.toNat * 10 ^ 18 ≤ p.redeemTokens.toNat * m.rate
  cash : m.cash.toNat = p.cash.toNat + p.redeemAmount.toNat
  supply : m.totalSupply.toNat = p.totalSupply.toNat + p.redeemTokens.toNat
  balance : (m.tokenBalance redeemer).toNat = p.balance.toNat + p.redeemTokens.toNat
  collateral :
    m.releaseCollateral redeemer p.redeemTokens = .ok (p.collateralTokensRemoved, p.collateral)

theorem Market.planRedemption_fits {p : RedeemPlan} {redeemer : AccountId}
    {redeemTokens redeemAmount : Amount}
    (hpayout : redeemAmount.toNat * 10 ^ 18 ≤ redeemTokens.toNat * m.rate)
    (hp : m.planRedemption redeemer redeemTokens redeemAmount = .ok p) : p.Fits m redeemer := by
  simp only [planRedemption, bind_eq_ok, liftM_market_eq_ok, pure_eq_ok, Prod.exists,
    Amount.sub_eq_ok] at hp
  obtain ⟨-, -, balance, hbalance, removed, collateral, hcollateral, cash, hcash, supply, hsupply,
    rfl⟩ := hp
  exact ⟨rfl, hpayout, hcash.trans (Nat.add_comm _ _), hsupply.trans (Nat.add_comm _ _),
    tokensAfter_eq_ok hbalance, hcollateral⟩

theorem Market.planRedeem_fits {p : RedeemPlan} {redeemer : AccountId} {redeemTokens : Amount}
    (hp : m.planRedeem redeemer redeemTokens now = .ok p) : p.Fits m redeemer := by
  simp only [planRedeem, bind_eq_ok] at hp
  obtain ⟨-, -, amount, hamount, hp⟩ := hp
  refine planRedemption_fits ?_ hp
  rw [underlyingOf_eq_ok hamount, Nat.mul_comm redeemTokens.toNat]
  exact Nat.div_mul_le_self _ _

theorem Market.planRedeemUnderlying_fits {p : RedeemPlan} {redeemer : AccountId}
    {redeemAmount : Amount} (hp : m.planRedeemUnderlying redeemer redeemAmount now = .ok p) :
    p.Fits m redeemer := by
  simp only [planRedeemUnderlying, bind_eq_ok, liftM_market_eq_ok, Amount.mul_eq_ok,
    Amount.div_eq_ok] at hp
  obtain ⟨-, -, r, hr, scaled, hscaled, full, ⟨hpos, hfull⟩, hp⟩ := hp
  have hscaled' : redeemAmount.toNat * 10 ^ 18 = scaled.toNat := hscaled
  have hdivision := Nat.div_add_mod scaled.toNat r.mantissa.toNat
  rw [hfull, exchangeRate_eq_ok hr] at hdivision
  rw [exchangeRate_eq_ok hr] at hpos
  split at hp
  next hexact =>
    simp only [bind_eq_ok, liftM_market_eq_ok, pure_eq_ok, exists_eq_left'] at hp
    refine planRedemption_fits ?_ hp
    rw [exchangeRate_eq_ok hr] at hexact
    rw [hscaled', Nat.mul_comm full.toNat]
    omega
  next =>
    -- a fraction of a token is paid for with a whole one
    simp only [bind_eq_ok, liftM_market_eq_ok, Amount.add_eq_ok, Amount.toNat_one] at hp
    obtain ⟨tokens, htokens, hp⟩ := hp
    refine planRedemption_fits ?_ hp
    have hmod := Nat.mod_lt scaled.toNat (Nat.pos_of_ne_zero hpos)
    rw [hscaled', ← htokens, Nat.add_mul, Nat.mul_comm full.toNat]
    omega

theorem Market.settleRedeem_fst (m : Market) (p : RedeemPlan) :
    (m.settleRedeem p).1 =
      { m with
        cash := p.cash
        totalSupply := p.totalSupply
        balances := m.balances.set p.redeemer p.balance
        kind := m.kind.commit p.collateral } := by
  unfold settleRedeem
  cases p.collateral with
  | none => rw [MarketKind.commit_none]; rfl
  | some plan =>
      dsimp only
      rw [commitCollateral_eq]
      rfl

/-! ## Borrowing and repaying -/

structure BorrowPlan.Fits (p : BorrowPlan) (m : Market) (borrower : AccountId)
    (amount : Amount) : Prop where
  borrower_eq : p.borrower = borrower
  debt : p.debt.toNat = m.debtOf borrower + amount.toNat
  borrows : p.totalBorrows.toNat = m.totalBorrows.toNat + amount.toNat
  cash : m.cash.toNat = p.cash.toNat + amount.toNat

theorem Market.planBorrow_fits {p : BorrowPlan} {borrower : AccountId} {amount : Amount}
    (hp : m.planBorrow borrower amount now = .ok p) : p.Fits m borrower amount := by
  simp only [planBorrow, bind_eq_ok, liftM_market_eq_ok, pure_eq_ok, Amount.add_eq_ok,
    Amount.sub_eq_ok] at hp
  obtain ⟨-, -, -, -, owed, howed, debt, hdebt, borrows, hborrows, cash, hcash, rfl⟩ := hp
  refine ⟨rfl, ?_, hborrows.symm, hcash.trans (Nat.add_comm _ _)⟩
  rw [← hdebt, owed_eq_ok howed]

structure RepayPlan.Fits (p : RepayPlan) (m : Market) (borrower : AccountId) : Prop where
  borrower_eq : p.borrower = borrower
  debt : m.debtOf borrower = p.debt.toNat + p.repayAmount.toNat
  borrows : m.totalBorrows.toNat = p.totalBorrows.toNat + p.repayAmount.toNat
  cash : p.cash.toNat = m.cash.toNat + p.repayAmount.toNat

theorem Market.planRepay_fits {p : RepayPlan} {payer borrower : AccountId} {amount : Amount}
    (hp : m.planRepay payer borrower amount now = .ok p) : p.Fits m borrower := by
  simp only [planRepay, bind_eq_ok, liftM_market_eq_ok, pure_eq_ok, Amount.add_eq_ok,
    Amount.sub_eq_ok] at hp
  obtain ⟨-, -, owed, howed, debt, hdebt, borrows, hborrows, cash, hcash, rfl⟩ := hp
  refine ⟨rfl, ?_, hborrows.trans (Nat.add_comm _ _), hcash.symm⟩
  rw [← owed_eq_ok howed, hdebt, Nat.add_comm]

/-! ## Moving tokens -/

structure MovePlan.Fits (p : MovePlan) (m : Market) (source target : AccountId)
    (tokens : Amount) : Prop where
  source_eq : p.source = source
  target_eq : p.target = target
  ne : source ≠ target
  sourceTokens : (m.tokenBalance source).toNat = p.sourceTokens.toNat + tokens.toNat
  targetTokens : p.targetTokens.toNat = (m.tokenBalance target).toNat + tokens.toNat

theorem Market.planMove_fits {p : MovePlan} {source target : AccountId} {tokens : Amount}
    {registrations : Except MarketError (Amount × Option CollateralPlan)}
    (hp : m.planMove source target tokens registrations = .ok p) :
    p.Fits m source target tokens ∧
      registrations = .ok (p.collateralTokensRemoved, p.collateral) := by
  simp only [planMove, guard_eq_ok, bind_eq_ok, liftM_market_eq_ok, pure_eq_ok, Prod.exists,
    Amount.add_eq_ok] at hp
  obtain ⟨hne, sourceTokens, hsource, targetTokens, htarget, removed, collateral, hregistrations,
    rfl⟩ := hp
  exact ⟨⟨rfl, rfl, hne, tokensAfter_eq_ok hsource, htarget.symm⟩, hregistrations⟩

theorem Market.planSeizure_eq_ok {p : MovePlan} {liquidator borrower : AccountId}
    {tokens : Amount} :
    m.planSeizure liquidator borrower tokens now = .ok p ↔
      m.accrualTimestamp = now ∧
        m.planMove borrower liquidator tokens (m.seizeCollateral borrower liquidator tokens) =
          .ok p := by
  simp only [planSeizure, bind_eq_ok, requireFresh_eq_ok, exists_and_left, exists_const]

theorem Market.settleMove_fst (m : Market) (p : MovePlan) :
    (m.settleMove p).1 =
      { m with
        balances := (m.balances.set p.source p.sourceTokens).set p.target p.targetTokens
        kind := m.kind.commit p.collateral } := by
  unfold settleMove
  cases p.collateral with
  | none => rw [MarketKind.commit_none]; rfl
  | some plan =>
      dsimp only
      rw [commitCollateral_eq]
      rfl

/-! ## Flashloans and reserves -/

structure FlashloanPlan.Fits (p : FlashloanPlan) (m : Market) : Prop where
  cash : p.cash.toNat = m.cash.toNat + p.totalFee.toNat
  reserves : p.totalReserves.toNat =
    m.totalReserves.toNat + m.reserveFactor.mantissa.toNat * p.totalFee.toNat / 10 ^ 18

theorem Market.planFlashloan_fits {p : FlashloanPlan} {receiver : AccountId}
    {amount repaid : Amount} (hp : m.planFlashloan receiver amount repaid now = .ok p) :
    p.Fits m := by
  simp only [planFlashloan, guard_eq_ok, bind_eq_ok, liftM_market_eq_ok, pure_eq_ok,
    Amount.add_eq_ok] at hp
  obtain ⟨-, -, -, -, fee, -, required, -, -, reservesFee, hfee, cash, hcash, reserves, hreserves,
    rfl⟩ := hp
  refine ⟨hcash.symm, ?_⟩
  rw [← hreserves, Wad.mulTruncate_eq_ok hfee]

/-- Reserves come with the cash that backs them. -/
theorem Market.addReserves_eq_ok {m' : Market} {event : Event} {benefactor : AccountId}
    {amount : Amount} (hadd : m.addReserves benefactor amount now = .ok (m', event)) :
    ∃ cash totalReserves : Amount,
      cash.toNat = m.cash.toNat + amount.toNat ∧
      totalReserves.toNat = m.totalReserves.toNat + amount.toNat ∧
      m' = { m with cash, totalReserves } := by
  simp only [addReserves, bind_eq_ok, liftM_market_eq_ok, pure_eq_ok, Amount.add_eq_ok,
    Prod.mk.injEq] at hadd
  obtain ⟨-, -, cash, hcash, reserves, hreserves, hm', -⟩ := hadd
  exact ⟨cash, reserves, hcash.symm, hreserves.symm, hm'.symm⟩

theorem Market.reduceReserves_eq_ok {m' : Market} {event : Event} {admin : AccountId}
    {amount : Amount} (hreduce : m.reduceReserves admin amount now = .ok (m', event)) :
    ∃ cash totalReserves : Amount,
      m.cash.toNat = cash.toNat + amount.toNat ∧
      m.totalReserves.toNat = totalReserves.toNat + amount.toNat ∧
      m' = { m with cash, totalReserves } := by
  simp only [reduceReserves, bind_eq_ok, liftM_market_eq_ok, pure_eq_ok, Amount.sub_eq_ok,
    Prod.mk.injEq] at hreduce
  obtain ⟨-, -, -, -, reserves, hreserves, cash, hcash, hm', -⟩ := hreduce
  exact ⟨cash, reserves, by omega, by omega, hm'.symm⟩

theorem Market.setReserveFactor_eq_ok {m' : Market} {event : Event} {reserveFactor : Wad}
    (hset : m.setReserveFactor reserveFactor now = .ok (m', event)) :
    reserveFactor ≤ 1 ∧ m' = { m with reserveFactor } := by
  simp only [setReserveFactor, bind_eq_ok, guard_eq_ok, pure_eq_ok, Prod.mk.injEq] at hset
  obtain ⟨-, -, hle, hm', -⟩ := hset
  exact ⟨Nat.le_of_not_lt hle, hm'.symm⟩

theorem Market.setRateModel_eq_ok {m' : Market} {rateModel : RateModel}
    (hset : m.setRateModel rateModel now = .ok m') : m' = { m with rateModel } := by
  simp only [setRateModel, bind_eq_ok, pure_eq_ok] at hset
  obtain ⟨-, -, hm'⟩ := hset
  exact hm'.symm

/-- Only markets that register collateral have a cap to set. -/
theorem Market.setCollateralCap_eq_ok {m' : Market} {cap : Amount} :
    m.setCollateralCap cap = .ok m' ↔ ∃ ledger, m.kind = .collateralCap ledger ∧
      m' = { m with kind := .collateralCap { ledger with cap } } := by
  unfold setCollateralCap
  cases m.kind with
  | vanilla | wrappedNative => simp
  | collateralCap ledger =>
      simp only [Except.ok.injEq, MarketKind.collateralCap.injEq, exists_eq_left', eq_comm]

end MoneyMarket
