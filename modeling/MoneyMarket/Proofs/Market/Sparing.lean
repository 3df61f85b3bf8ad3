import MoneyMarket.Proofs.Market.Debts
import MoneyMarket.Proofs.Market.Rate

/-! # Changes that spare an account

A call is at the expense of at most one account, unless it books interest. It
spares all others: they owe no more after it, they have no less collateral,
and what collateral they have is worth no less.
-/

namespace MoneyMarket

open Market

variable {m m' : Market} {call : Call} {account : AccountId}

/-- Whether a call is at the expense of an account. -/
def Market.Call.Debits (account : AccountId) : Call → Prop
  | .accrue _ => True
  | .redeem redeemer _ _ => redeemer = account
  | .redeemUnderlying redeemer _ _ => redeemer = account
  | .borrow borrower _ _ => borrower = account
  | .transfer source _ _ _ => source = account
  | .seize _ borrower _ _ => borrower = account
  | .unregister holder => holder = account
  | _ => False

structure Market.Spares (account : AccountId) (m m' : Market) : Prop where
  debt : m'.debtOf account ≤ m.debtOf account
  collateral : (m.collateralTokens account).toNat ≤ (m'.collateralTokens account).toNat
  /-- Collateral has a rate. -/
  rate : (m.collateralTokens account).toNat ≠ 0 → m.rate ≤ m'.rate

namespace Market

/-- Where there is collateral there are tokens. -/
theorem Consistent.supply_ne_zero (hm : m.Consistent)
    (hcollateral : (m.collateralTokens account).toNat ≠ 0) : m.totalSupply.toNat ≠ 0 := by
  have hheld := hm.collateral account
  have htotal := m.balances.of_le_total account
  have hsupply := hm.supply
  unfold tokenBalance at hheld
  omega

/-- Collateral that is left is worth no less than before. -/
theorem Change.rate_le_of_collateral (hm : m.Consistent) (hchange : Change m call m')
    (hcollateral : (m'.collateralTokens account).toNat ≠ 0) : m.rate ≤ m'.rate :=
  hchange.rate_le hm ((hm.change hchange).supply_ne_zero hcollateral)

theorem Change.debtOf_le (hchange : Change m call m') (hcall : ¬call.Debits account) :
    m'.debtOf account ≤ m.debtOf account := by
  cases hchange.debtChange with
  | untouched hindex _ hdebts => exact (debtOf_congr hindex hdebts account).le
  | accrued => exact absurd trivial hcall
  | @borrowed p borrower amount now hp =>
      exact (debtOf_settleBorrow_of_ne m p (hp.borrower_eq ▸ hcall)).le
  | repaid hp => exact debtOf_settleRepay_le hp account

theorem Change.collateralTokens_le (hchange : Change m call m') (hcall : ¬call.Debits account) :
    (m.collateralTokens account).toNat ≤ (m'.collateralTokens account).toNat := by
  cases hchange with
  | nothing => exact le_rfl
  | minted hp =>
      obtain ⟨counted, -, hcollateral⟩ := collateralTokens_settleMint hp
      rw [hcollateral account]
      exact Nat.le_add_right ..
  | @redeemed p redeemer _ _ hp | @underlyingRedeemed p redeemer _ _ hp =>
      have hne : redeemer ≠ account := hcall
      rw [(collateralTokens_settleRedeem hp).2 account, if_neg hne]
      exact le_rfl
  | @transferred p source _ _ _ hp hplan =>
      have hne : source ≠ account := hcall
      obtain ⟨-, counted, -, hcollateral⟩ := collateralTokens_settleMove_of_transfer hp hplan
      have hafter := hcollateral account
      rw [if_neg hne] at hafter
      omega
  | @seized p _ borrower _ _ hp hplan =>
      have hne : borrower ≠ account := hcall
      have hafter := collateralTokens_settleMove_of_seizure hp hplan account
      rw [if_neg hne] at hafter
      omega
  | registered hplan =>
      obtain ⟨counted, -, hcollateral⟩ := collateralTokens_settleRegistration_of_register hplan
      rw [hcollateral account]
      exact Nat.le_add_right ..
  | @unregistered holder _ _ hplan =>
      have hne : holder ≠ account := hcall
      rw [collateralTokens_settleRegistration_of_unregister hplan account, if_neg hne]
      exact le_rfl
  | accrued | borrowed | repaid | lent | reservesAdded | reservesReduced | reserveFactorSet
  | rateModelSet => exact le_rfl
  | capped hkind =>
      rw [collateralTokens_eq, hkind]
      exact le_rfl

theorem Change.spares (hm : m.Consistent) (hchange : Change m call m')
    (hcall : ¬call.Debits account) : m.Spares account m' := by
  have hcollateral := hchange.collateralTokens_le hcall
  refine ⟨hchange.debtOf_le hcall, hcollateral, ?_⟩
  intro hne
  have hafter : (m'.collateralTokens account).toNat ≠ 0 := by omega
  exact hchange.rate_le_of_collateral hm hafter

end Market

end MoneyMarket
