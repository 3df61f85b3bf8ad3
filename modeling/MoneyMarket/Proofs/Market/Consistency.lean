import MoneyMarket.Proofs.Market.Registered
import MoneyMarket.Proofs.Market.Run

/-! # Consistent markets

What the figures of a market have to do with each other at all times: the
supply is what the accounts hold, collateral is held, the reserve factor is at
most one, and reserves are backed by cash and borrows. New markets are
consistent, and each change keeps them so.
-/

namespace MoneyMarket

open Market

variable {m m' : Market} {source target : AccountId}

structure Market.Consistent (m : Market) : Prop where
  /-- The tokens are held by accounts. -/
  supply : m.totalSupply.toNat = m.balances.total
  /-- Collateral is held by the account whose it is. -/
  collateral : ∀ account, (m.collateralTokens account).toNat ≤ (m.tokenBalance account).toNat
  reserveFactor : m.reserveFactor ≤ 1
  /-- Reserves are backed by cash and borrows. -/
  backed : m.totalReserves.toNat ≤ m.cash.toNat + m.totalBorrows.toNat

theorem Market.IsNew.consistent (hm : m.IsNew) : m.Consistent := by
  refine ⟨?_, ?_, hm.reserveFactor, ?_⟩
  · rw [hm.supply, hm.balances, Balances.total_empty, Amount.toNat_zero]
  · intro account
    rw [collateralTokens_eq]
    cases hledger : m.kind.ledger? with
    | none => exact le_rfl
    | some ledger =>
        rw [Option.elim_some, CollateralLedger.tokensOf, (hm.ledger ledger hledger).2]
        exact Nat.zero_le _
  · rw [hm.reserves]
    exact Nat.zero_le _

/-- Without tokens there is no collateral. -/
theorem Market.Consistent.collateralTokens_eq_zero {account : AccountId} (hm : m.Consistent)
    (hnone : m.tokenBalance account = 0) : m.collateralTokens account = 0 :=
  Amount.eq_zero_of_le (hm.collateral account) hnone

/-! ## Payouts -/

/-- All tokens together are not worth more than what belongs to the suppliers. -/
theorem Market.rate_mul_supply_le (m : Market) :
    m.rate * m.totalSupply.toNat ≤ m.netAssets * 10 ^ 18 := by
  unfold rate
  split
  next hzero =>
    rw [hzero]
    exact Nat.zero_le _
  next => exact Nat.div_mul_le_self _ _

theorem RedeemPlan.Fits.amount_le_netAssets {p : RedeemPlan} (hp : p.Fits m source) :
    p.redeemAmount.toNat ≤ m.netAssets := by
  have htokens : p.redeemTokens.toNat ≤ m.totalSupply.toNat := by
    rw [hp.supply]
    exact Nat.le_add_left ..
  refine Nat.le_of_mul_le_mul_right ?_ (by decide : 0 < 10 ^ 18)
  calc p.redeemAmount.toNat * 10 ^ 18
      ≤ p.redeemTokens.toNat * m.rate := hp.payout
    _ ≤ m.totalSupply.toNat * m.rate := Nat.mul_le_mul_right _ htokens
    _ ≤ m.netAssets * 10 ^ 18 := Nat.mul_comm _ m.rate ▸ m.rate_mul_supply_le

/-- A payout leaves the reserves backed. -/
theorem RedeemPlan.Fits.backed_after {p : RedeemPlan} (hp : p.Fits m source)
    (hbacked : m.totalReserves.toNat ≤ m.cash.toNat + m.totalBorrows.toNat) :
    m.totalReserves.toNat ≤ p.cash.toNat + m.totalBorrows.toNat := by
  have hamount := hp.amount_le_netAssets
  have hcash := hp.cash
  unfold netAssets at hamount
  omega

/-! ## Movements -/

theorem MovePlan.Fits.total_balances {p : MovePlan} {tokens : Amount}
    (hp : p.Fits m source target tokens) :
    ((m.balances.set p.source p.sourceTokens).set p.target p.targetTokens).total =
      m.balances.total := by
  have hmoved : ∀ account,
      (((m.balances.set p.source p.sourceTokens).set p.target p.targetTokens).of account).toNat +
          (if source = account then tokens.toNat else 0) =
        (m.balances.of account).toNat + if target = account then tokens.toNat else 0 := by
    intro account
    have hbalance := tokenBalance_settleMove_add hp account
    rw [settleMove_fst] at hbalance
    exact hbalance
  exact Nat.add_right_cancel (Balances.total_moved source target hmoved)

/-! ## What each operation keeps -/

namespace Market.Consistent

theorem book {a : Accrual} {now : UInt64} (hm : m.Consistent) (ha : a.Fits m) :
    (m.book now a).Consistent := by
  refine { hm with backed := ?_ }
  have hshare := Wad.share_le hm.reserveFactor a.interestAccumulated.toNat
  have hreserves := ha.reserves
  have hborrows := ha.borrows
  have hbacked := hm.backed
  dsimp only [Market.book]
  omega

theorem settleMint {p : MintPlan} {minter : AccountId} {amount : Amount} {isMember : Bool}
    (hm : m.Consistent) (hp : p.Fits m minter amount isMember) :
    (m.settleMint p).1.Consistent := by
  obtain ⟨counted, hcounted, hcollateral⟩ := collateralTokens_settleMint hp
  refine ⟨?_, ?_, ?_, ?_⟩
  · have htotal := m.balances.total_set minter p.balance
    have hbalance := hp.balance
    have hheld := hm.supply
    have hsupply := hp.supply
    rw [settleMint_fst]
    dsimp only
    rw [hp.minter_eq]
    unfold tokenBalance at hbalance
    omega
  · intro account
    have hheld := hm.collateral account
    rw [hcollateral, tokenBalance_settleMint, hp.minter_eq]
    split_ifs with heq
    · rw [hp.balance, heq]
      omega
    · exact hheld
  · rw [settleMint_fst]
    exact hm.reserveFactor
  · have hbacked := hm.backed
    have hcash := hp.cash
    rw [settleMint_fst]
    dsimp only
    omega

theorem settleRedeem {p : RedeemPlan} {redeemer : AccountId} (hm : m.Consistent)
    (hp : p.Fits m redeemer) : (m.settleRedeem p).1.Consistent := by
  obtain ⟨hremoved, hcollateral⟩ := collateralTokens_settleRedeem hp
  refine ⟨?_, ?_, ?_, ?_⟩
  · have htotal := m.balances.total_set redeemer p.balance
    have hbalance := hp.balance
    have hheld := hm.supply
    have hsupply := hp.supply
    rw [settleRedeem_fst]
    dsimp only
    rw [hp.redeemer_eq]
    unfold tokenBalance at hbalance
    omega
  · intro account
    have hheld := hm.collateral account
    have hafter := hcollateral account
    rw [tokenBalance_settleRedeem, hp.redeemer_eq]
    unfold uncovered at hremoved
    split_ifs at hafter ⊢ with heq
    · have hbalance := hp.balance
      rw [heq] at hbalance hremoved
      omega
    · omega
  · rw [settleRedeem_fst]
    exact hm.reserveFactor
  · rw [settleRedeem_fst]
    exact hp.backed_after hm.backed

/-- A movement only has to leave collateral held. -/
theorem settleMove {p : MovePlan} {tokens : Amount} (hm : m.Consistent)
    (hp : p.Fits m source target tokens)
    (hcollateral : ∀ account, ((m.settleMove p).1.collateralTokens account).toNat ≤
      ((m.settleMove p).1.tokenBalance account).toNat) : (m.settleMove p).1.Consistent := by
  rw [settleMove_fst] at hcollateral ⊢
  exact ⟨hm.supply.trans hp.total_balances.symm, hcollateral, hm.reserveFactor, hm.backed⟩

theorem settleTransfer {p : MovePlan} {tokens : Amount} {targetIsMember : Bool}
    (hm : m.Consistent) (hp : p.Fits m source target tokens)
    (hplan : m.transferCollateral source target tokens targetIsMember =
      .ok (p.collateralTokensRemoved, p.collateral)) : (m.settleMove p).1.Consistent := by
  obtain ⟨hremoved, counted, hcounted, hcollateral⟩ :=
    collateralTokens_settleMove_of_transfer hp hplan
  apply hm.settleMove hp
  intro account
  have hheld := hm.collateral account
  have hafter := hcollateral account
  have hbalance := tokenBalance_settleMove_add hp account
  unfold uncovered at hremoved
  -- the source keeps what covers its collateral, the target gets no more
  -- collateral than tokens
  by_cases heq : source = account
  · rw [heq] at hremoved
    split_ifs at hafter hbalance <;> omega
  · rw [if_neg heq] at hafter hbalance
    split_ifs at hafter hbalance <;> omega

theorem settleSeizure {p : MovePlan} {tokens : Amount} (hm : m.Consistent)
    (hp : p.Fits m source target tokens)
    (hplan : m.seizeCollateral source target tokens =
      .ok (p.collateralTokensRemoved, p.collateral)) : (m.settleMove p).1.Consistent := by
  apply hm.settleMove hp
  intro account
  have hheld := hm.collateral account
  have hafter := collateralTokens_settleMove_of_seizure hp hplan account
  have hbalance := tokenBalance_settleMove_add hp account
  omega

theorem settleFlashloan {p : FlashloanPlan} (hm : m.Consistent) (hp : p.Fits m) :
    (m.settleFlashloan p).1.Consistent := by
  refine { hm with backed := ?_ }
  have hshare := Wad.share_le hm.reserveFactor p.totalFee.toNat
  have hcash := hp.cash
  have hreserves := hp.reserves
  have hbacked := hm.backed
  dsimp only [Market.settleFlashloan]
  omega

/-- A change of registrations only has to leave collateral held. -/
theorem settleRegistration {plan : CollateralPlan} (hm : m.Consistent)
    (hcollateral : ∀ account, ((m.settleRegistration plan).1.collateralTokens account).toNat ≤
      (m.tokenBalance account).toNat) : (m.settleRegistration plan).1.Consistent := by
  rw [Market.settleRegistration, commitCollateral_eq] at hcollateral ⊢
  exact { hm with collateral := hcollateral }

/-! ## Changes -/

theorem change {call : Call} (hm : m.Consistent) (hchange : Change m call m') :
    m'.Consistent := by
  have hbacked := hm.backed
  cases hchange with
  | nothing => exact hm
  | accrued ha => exact hm.book ha
  | minted hp => exact hm.settleMint hp
  | redeemed hp => exact hm.settleRedeem hp
  | underlyingRedeemed hp => exact hm.settleRedeem hp
  | borrowed hp =>
      refine { hm with backed := ?_ }
      have hborrows := hp.borrows
      have hcash := hp.cash
      dsimp only [settleBorrow, setDebt]
      omega
  | repaid hp =>
      refine { hm with backed := ?_ }
      have hborrows := hp.borrows
      have hcash := hp.cash
      dsimp only [settleRepay, setDebt]
      omega
  | transferred hp hplan => exact hm.settleTransfer hp hplan
  | seized hp hplan => exact hm.settleSeizure hp hplan
  | lent hp => exact hm.settleFlashloan hp
  | registered hplan =>
      obtain ⟨counted, hcounted, hcollateral⟩ :=
        collateralTokens_settleRegistration_of_register hplan
      apply hm.settleRegistration
      intro other
      have hheld := hm.collateral other
      rw [hcollateral other]
      split_ifs with heq
      · rw [heq] at hcounted
        omega
      · exact hheld
  | unregistered hplan =>
      have hcollateral := collateralTokens_settleRegistration_of_unregister hplan
      apply hm.settleRegistration
      intro other
      exact ((Nat.le_add_right ..).trans_eq (hcollateral other).symm).trans (hm.collateral other)
  | reservesAdded hcash hreserves =>
      refine { hm with backed := ?_ }
      dsimp only
      omega
  | reservesReduced hcash hreserves =>
      refine { hm with backed := ?_ }
      dsimp only
      omega
  | reserveFactorSet hle => exact { hm with reserveFactor := hle }
  | rateModelSet => exact { hm with }
  | capped hkind =>
      refine { hm with collateral := ?_ }
      intro account
      have hheld := hm.collateral account
      rw [collateralTokens_eq, hkind] at hheld
      exact hheld

end Market.Consistent

theorem Market.Reachable.consistent (hm : m.Reachable) : m.Consistent :=
  hm.invariant (fun _ => IsNew.consistent) fun _ _ _ => Consistent.change

end MoneyMarket
