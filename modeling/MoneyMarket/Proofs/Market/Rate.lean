import MoneyMarket.Proofs.Market.Consistency

/-! # The exchange rate never falls

Supplied underlying buys no more tokens than it is worth, redeemed tokens are
paid no more than they are worth, and fees and interest stay in the market
but for a share of them. So with tokens about the exchange rate falls by no
call whatever. It starts from the initial rate, which is positive, whenever
there are no tokens, and so it is always a rate that can be divided by.
-/

namespace MoneyMarket

open Market

variable {m m' : Market} {call : Call}

/-- The tokens that underlying buys are worth no more than it. -/
theorem MintPlan.Fits.rate_mul_tokens_le {p : MintPlan} {minter : AccountId} {amount : Amount}
    {isMember : Bool} (hp : p.Fits m minter amount isMember) :
    m.rate * p.mintTokens.toNat ≤ amount.toNat * 10 ^ 18 := by
  rw [hp.tokens]
  exact Nat.mul_div_le ..

namespace Market

/-- A rate is reached where it values the supply below the assets. -/
theorem le_rate {r : Nat} (hsupply : m.totalSupply.toNat ≠ 0)
    (hvalue : r * m.totalSupply.toNat ≤ m.netAssets * 10 ^ 18) : r ≤ m.rate := by
  unfold rate
  rw [if_neg hsupply]
  exact (Nat.le_div_iff_mul_le (Nat.pos_of_ne_zero hsupply)).mpr hvalue

/-- The same supply is worth more with more assets. -/
theorem rate_mul_supply_le_of_le (hsupply : m'.totalSupply = m.totalSupply)
    (hassets : m.netAssets ≤ m'.netAssets) :
    m.rate * m'.totalSupply.toNat ≤ m'.netAssets * 10 ^ 18 := by
  rw [hsupply]
  exact m.rate_mul_supply_le.trans (Nat.mul_le_mul_right _ hassets)

theorem netAssets_settleMint {p : MintPlan} {minter : AccountId} {amount : Amount}
    {isMember : Bool} (hm : m.Consistent) (hp : p.Fits m minter amount isMember) :
    (m.settleMint p).1.netAssets = m.netAssets + amount.toNat := by
  have hbacked := hm.backed
  have hcash := hp.cash
  rw [settleMint_fst]
  unfold netAssets
  dsimp only
  omega

theorem totalSupply_settleMint {p : MintPlan} {minter : AccountId} {amount : Amount}
    {isMember : Bool} (hp : p.Fits m minter amount isMember) :
    (m.settleMint p).1.totalSupply.toNat = m.totalSupply.toNat + p.mintTokens.toNat := by
  rw [settleMint_fst]
  exact hp.supply

theorem rate_mul_supply_le_settleMint {p : MintPlan} {minter : AccountId} {amount : Amount}
    {isMember : Bool} (hm : m.Consistent) (hp : p.Fits m minter amount isMember) :
    m.rate * (m.settleMint p).1.totalSupply.toNat ≤ (m.settleMint p).1.netAssets * 10 ^ 18 := by
  rw [netAssets_settleMint hm hp, totalSupply_settleMint hp, Nat.mul_add, Nat.add_mul]
  exact Nat.add_le_add m.rate_mul_supply_le hp.rate_mul_tokens_le

theorem rate_mul_supply_le_settleRedeem {p : RedeemPlan} {redeemer : AccountId}
    (hp : p.Fits m redeemer) :
    m.rate * (m.settleRedeem p).1.totalSupply.toNat ≤
      (m.settleRedeem p).1.netAssets * 10 ^ 18 := by
  have hassets : m.netAssets = (m.settleRedeem p).1.netAssets + p.redeemAmount.toNat := by
    have hamount := hp.amount_le_netAssets
    have hcash := hp.cash
    rw [settleRedeem_fst]
    unfold netAssets at hamount ⊢
    dsimp only
    omega
  have hsupply : m.totalSupply.toNat =
      (m.settleRedeem p).1.totalSupply.toNat + p.redeemTokens.toNat := by
    rw [settleRedeem_fst]
    exact hp.supply
  have hvalue := m.rate_mul_supply_le
  have hpayout := hp.payout
  rw [hassets, hsupply, Nat.mul_add, Nat.add_mul] at hvalue
  rw [Nat.mul_comm p.redeemTokens.toNat] at hpayout
  omega

/-- What any call leaves is worth the tokens that it leaves, at the rate before. -/
theorem Change.rate_mul_supply_le (hm : m.Consistent) (hchange : Change m call m') :
    m.rate * m'.totalSupply.toNat ≤ m'.netAssets * 10 ^ 18 := by
  have hbacked := hm.backed
  cases hchange with
  | nothing => exact m.rate_mul_supply_le
  | @accrued a now ha =>
      -- the reserves get a share of the interest, the suppliers the rest
      refine rate_mul_supply_le_of_le rfl ?_
      have hshare := Wad.share_le hm.reserveFactor a.interestAccumulated.toNat
      have hborrows := ha.borrows
      have hreserves := ha.reserves
      unfold netAssets book
      dsimp only
      omega
  | minted hp => exact rate_mul_supply_le_settleMint hm hp
  | redeemed hp => exact rate_mul_supply_le_settleRedeem hp
  | underlyingRedeemed hp => exact rate_mul_supply_le_settleRedeem hp
  | borrowed hp =>
      refine rate_mul_supply_le_of_le rfl ?_
      have hborrows := hp.borrows
      have hcash := hp.cash
      unfold netAssets settleBorrow setDebt
      dsimp only
      omega
  | repaid hp =>
      refine rate_mul_supply_le_of_le rfl ?_
      have hborrows := hp.borrows
      have hcash := hp.cash
      unfold netAssets settleRepay setDebt
      dsimp only
      omega
  | transferred | seized =>
      rw [settleMove_fst]
      exact rate_mul_supply_le_of_le rfl le_rfl
  | @lent p receiver amount repaid now hp =>
      refine rate_mul_supply_le_of_le rfl ?_
      have hshare := Wad.share_le hm.reserveFactor p.totalFee.toNat
      have hcash := hp.cash
      have hreserves := hp.reserves
      unfold netAssets settleFlashloan
      dsimp only
      omega
  | registered | unregistered =>
      rw [settleRegistration, commitCollateral_eq]
      exact rate_mul_supply_le_of_le rfl le_rfl
  | reservesAdded hcash hreserves | reservesReduced hcash hreserves =>
      refine rate_mul_supply_le_of_le rfl ?_
      unfold netAssets
      dsimp only
      omega
  | reserveFactorSet | rateModelSet | capped => exact rate_mul_supply_le_of_le rfl le_rfl

theorem Change.rate_le (hm : m.Consistent) (hchange : Change m call m')
    (hsupply : m'.totalSupply.toNat ≠ 0) : m.rate ≤ m'.rate :=
  le_rate hsupply (hchange.rate_mul_supply_le hm)

/-! ## Calls that leave the rate -/

/-- Whether a call only moves tokens, or assets together with what is owed for
them. -/
def Call.LeavesRate : Call → Prop
  | .borrow .. | .repay .. | .transfer .. | .seize .. | .addReserves .. | .reduceReserves .. =>
      True
  | _ => False

theorem rate_congr (hinitial : m'.initialExchangeRate = m.initialExchangeRate)
    (hsupply : m'.totalSupply = m.totalSupply) (hassets : m'.netAssets = m.netAssets) :
    m'.rate = m.rate := by
  unfold rate
  rw [hinitial, hsupply, hassets]

theorem Change.rate_eq (hchange : Change m call m') (hcall : call.LeavesRate) :
    m'.rate = m.rate := by
  cases hchange with
  | nothing => rfl
  | borrowed hp =>
      refine rate_congr rfl rfl ?_
      have hborrows := hp.borrows
      have hcash := hp.cash
      unfold netAssets settleBorrow setDebt
      dsimp only
      omega
  | repaid hp =>
      refine rate_congr rfl rfl ?_
      have hborrows := hp.borrows
      have hcash := hp.cash
      unfold netAssets settleRepay setDebt
      dsimp only
      omega
  | transferred | seized =>
      rw [settleMove_fst]
      exact rate_congr rfl rfl rfl
  | reservesAdded hcash hreserves | reservesReduced hcash hreserves =>
      refine rate_congr rfl rfl ?_
      unfold netAssets
      dsimp only
      omega
  | accrued | minted | redeemed | underlyingRedeemed | lent | registered | unregistered
  | reserveFactorSet | rateModelSet | capped => exact hcall.elim

/-! ## The least rate -/

theorem Change.initialExchangeRate_eq (hchange : Change m call m') :
    m'.initialExchangeRate = m.initialExchangeRate := by
  cases hchange with
  | minted => rw [settleMint_fst]
  | redeemed | underlyingRedeemed => rw [settleRedeem_fst]
  | transferred | seized => rw [settleMove_fst]
  | registered | unregistered => rw [settleRegistration, commitCollateral_eq]
  | nothing | accrued | borrowed | repaid | lent | reservesAdded | reservesReduced
  | reserveFactorSet | rateModelSet | capped => rfl

/-- A consistent market whose rate is at least a positive initial one. -/
structure Priced (m : Market) : Prop where
  consistent : m.Consistent
  initial_pos : 0 < m.initialExchangeRate.mantissa.toNat
  initial_le : m.initialExchangeRate.mantissa.toNat ≤ m.rate

theorem rate_of_supply_eq_zero (hsupply : m.totalSupply.toNat = 0) :
    m.rate = m.initialExchangeRate.mantissa.toNat :=
  if_pos hsupply

theorem IsNew.priced (hm : m.IsNew) : m.Priced := by
  refine ⟨hm.consistent, ?_, ?_⟩
  · apply Nat.pos_of_ne_zero
    intro hzero
    exact hm.initialRate (Wad.ext (Amount.eq_zero_iff.mpr hzero))
  · rw [rate_of_supply_eq_zero (Amount.eq_zero_iff.mp hm.supply)]

/-- Without tokens the rate is the initial one again, and with tokens it has
not fallen. -/
theorem Priced.change (hm : m.Priced) (hchange : Change m call m') : m'.Priced := by
  refine ⟨hm.consistent.change hchange, ?_, ?_⟩
  · rw [hchange.initialExchangeRate_eq]
    exact hm.initial_pos
  · by_cases hsupply : m'.totalSupply.toNat = 0
    · rw [rate_of_supply_eq_zero hsupply]
    · rw [hchange.initialExchangeRate_eq]
      exact hm.initial_le.trans (hchange.rate_le hm.consistent hsupply)

theorem Reachable.priced (hm : m.Reachable) : m.Priced :=
  hm.invariant (fun _ => IsNew.priced) fun _ _ _ => Priced.change

theorem Priced.exchangeRate_ne_zero {rate : Wad} (hm : m.Priced)
    (hrate : m.exchangeRate = .ok rate) : rate.mantissa ≠ 0 := by
  intro hzero
  have hpos := hm.initial_pos.trans_le hm.initial_le
  rw [← exchangeRate_eq_ok hrate, hzero] at hpos
  exact Nat.lt_irrefl _ hpos

/-! ## Dividing by the rate -/

theorem avoids_mintCollateral {minter : AccountId} {tokens : Amount} {isMember : Bool}
    {e : ArithmeticError} (he : e ≠ .overflow) :
    Avoids (.arithmetic e) (m.mintCollateral minter tokens isMember) := by
  unfold mintCollateral
  split
  · split
    · exact (CollateralLedger.avoids_register he).bind fun _ _ => avoids_pure _ _
    · exact avoids_pure _ _
  · exact avoids_pure _ _

theorem avoids_releaseCollateral {account : AccountId} {tokens : Amount} {e : ArithmeticError}
    (he : e ≠ .underflow) : Avoids (.arithmetic e) (m.releaseCollateral account tokens) := by
  unfold releaseCollateral
  split
  · exact avoids_pure _ _
  · exact (CollateralLedger.avoids_release he).bind fun _ _ => avoids_pure _ _

theorem avoids_planRedemption {redeemer : AccountId} {redeemTokens redeemAmount : Amount}
    {e : ArithmeticError} (he : e ≠ .underflow) :
    Avoids (.arithmetic e) (m.planRedemption redeemer redeemTokens redeemAmount) :=
  avoids_requireCash.bind fun _ _ => (avoids_tokensAfter he).bind fun _ _ =>
    (avoids_releaseCollateral he).bind fun _ _ => (Amount.avoids_sub he).liftM.bind fun _ _ =>
      (Amount.avoids_sub he).liftM.bind fun _ _ => avoids_pure _ _

/-- An amount is converted into tokens by a rate that is not zero. -/
theorem Priced.avoids_conversion {β : Type} {amount : Amount} {now : UInt64}
    {k : Wad → Amount → Amount → Except MarketError β} (hm : m.Priced)
    (hk : ∀ rate scaled tokens, Avoids (.arithmetic .divideByZero) (k rate scaled tokens)) :
    Avoids (.arithmetic .divideByZero) (do
      m.requireFresh now
      let rate ← m.exchangeRate
      let scaled ← amount.mul Wad.unit
      let tokens ← scaled.div rate.mantissa
      k rate scaled tokens) := by
  apply avoids_requireFresh.bind
  intro _ _
  apply (avoids_exchangeRate (by decide) (by decide)).liftM.bind
  intro rate hrate
  apply (Amount.avoids_mul (by decide)).liftM.bind
  intro scaled _
  apply (Amount.avoids_div (hm.exchangeRate_ne_zero (liftM_market_eq_ok.mp hrate))).liftM.bind
  intro tokens _
  exact hk rate scaled tokens

theorem Priced.avoids_planMint {minter : AccountId} {amount : Amount} {isMember : Bool}
    {now : UInt64} (hm : m.Priced) :
    Avoids (.arithmetic .divideByZero) (m.planMint minter amount isMember now) := by
  apply hm.avoids_conversion
  intro _ _ tokens
  -- from here on nothing is divided
  apply (avoids_mintCollateral (by decide)).bind
  intro _ _
  have hadd : ∀ a b : Amount, Avoids (.arithmetic .divideByZero)
      (liftM (a.add b) : Except MarketError Amount) :=
    fun _ _ => (Amount.avoids_add (by decide)).liftM
  exact (hadd _ _).bind fun _ _ => (hadd _ _).bind fun _ _ => (hadd _ _).bind fun _ _ =>
    avoids_pure _ _

theorem Priced.avoids_planRedeemUnderlying {redeemer : AccountId} {amount : Amount}
    {now : UInt64} (hm : m.Priced) :
    Avoids (.arithmetic .divideByZero) (m.planRedeemUnderlying redeemer amount now) := by
  apply hm.avoids_conversion
  intro rate scaled full
  dsimp only
  split
  · exact (avoids_pure _ _).liftM.bind fun _ _ => avoids_planRedemption (by decide)
  · exact (Amount.avoids_add (by decide)).liftM.bind fun _ _ => avoids_planRedemption (by decide)

/-- In a reachable market no call that ends with tokens lowers the exchange
rate, and borrows, repayments, moves of tokens and changes of the reserves
leave it. It is never below the initial rate, so supplying and redeeming never
divide by zero. -/
theorem Reachable.exchangeRate_never_falls (hm : m.Reachable) :
    (∀ call m' events before after, m.perform call = .ok (m', events) →
      0 < m'.totalSupply → m.exchangeRate = .ok before → m'.exchangeRate = .ok after →
        before ≤ after ∧ (call.LeavesRate → after = before)) ∧
    (∀ rate, m.exchangeRate = .ok rate → m.initialExchangeRate ≤ rate) ∧
    (∀ minter amount isMember now,
      m.planMint minter amount isMember now ≠ .error (.arithmetic .divideByZero)) ∧
    ∀ redeemer amount now,
      m.planRedeemUnderlying redeemer amount now ≠ .error (.arithmetic .divideByZero) := by
  have hpriced := hm.priced
  refine ⟨?_, ?_, fun _ _ _ _ => hpriced.avoids_planMint,
    fun _ _ _ => hpriced.avoids_planRedeemUnderlying⟩
  · intro call m' events before after hperform hsupply hbefore hafter
    have hchange := change_of_perform hperform
    constructor
    · rw [Wad.le_def, exchangeRate_eq_ok hbefore, exchangeRate_eq_ok hafter]
      exact hchange.rate_le hpriced.consistent (Nat.ne_of_gt hsupply)
    · intro hcall
      apply Wad.ext
      apply Amount.ext
      rw [exchangeRate_eq_ok hbefore, exchangeRate_eq_ok hafter, hchange.rate_eq hcall]
  · intro rate hrate
    rw [Wad.le_def, exchangeRate_eq_ok hrate]
    exact hpriced.initial_le

/-- A redemption of all cash of the sample costs a whole token for the last
fraction of one, which is to the good of the tokens that are left. -/
theorem sample_exchangeRate_rises :
    ∃ m' events, sample.perform (.redeemUnderlying ⟨"alice"⟩ sample.cash 1000) =
        .ok (m', events) ∧
      m'.totalSupply = ⟨400_215_922, by decide⟩ ∧
      ∃ before after, sample.exchangeRate = .ok before ∧ m'.exchangeRate = .ok after ∧
        before.mantissa.toNat = 1_000_360_000_000_000_000 ∧
        after.mantissa.toNat = 1_000_360_000_669_838_417 ∧ before ≤ after := by
  have hrun : (do
      let done ← sample.perform (.redeemUnderlying ⟨"alice"⟩ sample.cash 1000)
      let after ← done.1.exchangeRate
      return (done.1.totalSupply, after)) =
      .ok (⟨400_215_922, by decide⟩, ⟨⟨1_000_360_000_669_838_417, by decide⟩⟩) := by rfl
  simp only [bind_eq_ok, liftM_market_eq_ok, pure_eq_ok, Prod.exists, Prod.mk.injEq] at hrun
  obtain ⟨m', events, hperform, after, hafter, hsupply, rfl⟩ := hrun
  have hbefore : sample.exchangeRate = .ok ⟨⟨1_000_360_000_000_000_000, by decide⟩⟩ := by rfl
  have hpos : 0 < m'.totalSupply := hsupply ▸ by decide
  have hrises := sample_reachable.exchangeRate_never_falls.1 _ _ _ _ _ hperform hpos hbefore
    hafter
  exact ⟨m', events, hperform, hsupply, _, _, hbefore, hafter, rfl, rfl, hrises.1⟩

end Market

end MoneyMarket
