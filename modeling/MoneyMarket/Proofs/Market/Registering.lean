import MoneyMarket.Proofs.Market.Availability

/-! # Who registers tokens

Where collateral is registered, an account comes to have more of it only as a
member that is supplied or sent tokens, as one that registers what it holds, or
as the liquidator of a seizure. Who unregisters is left with none.
-/

namespace MoneyMarket

open Market

variable {m m' : Market} {account other source target : AccountId} {tokens : Amount}
  {call : Call} {events : List Event}

/-- Whether a market registers collateral. -/
def Market.registersCollateral (m : Market) : Bool := m.kind.ledger?.isSome

/-- Whether a call may register tokens of an account. -/
def Market.Call.Registers (account : AccountId) : Call → Prop
  | .mint minter _ isMember _ => minter = account ∧ isMember = true
  | .transfer _ target _ targetIsMember => target = account ∧ targetIsMember = true
  | .seize liquidator _ _ _ => liquidator = account
  | .register holder => holder = account
  | _ => False

namespace Market

theorem registersCollateral_eq_true :
    m.registersCollateral = true ↔ ∃ ledger, m.kind.ledger? = some ledger :=
  Option.isSome_iff_exists

/-- Markets do not start or stop to register collateral. -/
theorem Change.registersCollateral_eq (hchange : Change m call m') :
    m'.registersCollateral = m.registersCollateral := by
  unfold registersCollateral
  rcases hchange.kind_eq with ⟨plan, -, hkind⟩ | ⟨ledger, cap, -, hbefore, hkind⟩
  · rw [hkind, MarketKind.ledger?_commit, Option.isSome_map]
  · rw [hkind, hbefore]
    rfl

/-! ## Tokens for accounts that are no members -/

/-- Nothing is registered for a supplier who is no member. -/
theorem collateralTokens_settleMint_of_not_isMember {p : MintPlan} {minter : AccountId}
    {amount : Amount} (hp : p.Fits m minter amount false) (hm : m.registersCollateral = true)
    (account : AccountId) :
    (m.settleMint p).1.collateralTokens account = m.collateralTokens account := by
  have hkind : (m.settleMint p).1.kind = m.kind.commit p.collateral := by rw [settleMint_fst]
  have hnone : p.collateral = none := by
    have hcollateral := hp.collateral
    rw [Orderly.mintCollateral_of_not_isMember] at hcollateral
    exact (Except.ok.inj hcollateral).symm
  obtain ⟨ledger, hledger⟩ := registersCollateral_eq_true.mp hm
  rw [collateralTokens_of_commit hkind, collateralTokens_of_ledger?_eq_some hledger, hledger,
    hnone]
  rfl

/-- To send tokens to somebody who is no member is to release them. -/
theorem transferCollateral_of_not_isMember (m : Market) (source target : AccountId)
    (tokens : Amount) :
    m.transferCollateral source target tokens false = m.releaseCollateral source tokens := by
  unfold transferCollateral releaseCollateral
  cases m.kind.ledger? <;> rfl

theorem collateralTokens_settleMove_le_of_not_isMember {p : MovePlan}
    (hcollateral : m.transferCollateral source target tokens false =
      .ok (p.collateralTokensRemoved, p.collateral)) (hm : m.registersCollateral = true)
    (account : AccountId) :
    ((m.settleMove p).1.collateralTokens account).toNat ≤ (m.collateralTokens account).toNat := by
  have hkind : (m.settleMove p).1.kind = m.kind.commit p.collateral := by rw [settleMove_fst]
  obtain ⟨ledger, hledger⟩ := registersCollateral_eq_true.mp hm
  rw [transferCollateral_of_not_isMember] at hcollateral
  have hreleased := (releaseCollateral_eq_ok hcollateral).2 ledger hledger account
  rw [collateralTokens_of_commit hkind, collateralTokens_of_ledger?_eq_some hledger, hledger,
    hreleased]
  exact Nat.le_add_right ..

/-! ## Registrations after a call -/

/-- A call that registers no tokens of an account leaves it with no more of them. -/
theorem Change.registered_le (hchange : Change m call m') (hm : m.registersCollateral = true)
    (hcall : ¬call.Registers account) :
    (m'.collateralTokens account).toNat ≤ (m.collateralTokens account).toNat := by
  cases hchange with
  | nothing => exact le_rfl
  | @minted p minter amount isMember _ hp =>
      cases isMember with
      | false => rw [collateralTokens_settleMint_of_not_isMember hp hm]
      | true =>
          have hne : minter ≠ account := fun heq => hcall ⟨heq, rfl⟩
          obtain ⟨counted, -, hcollateral⟩ := collateralTokens_settleMint hp
          rw [hcollateral account, if_neg hne]
          exact le_rfl
  | redeemed hp | underlyingRedeemed hp =>
      rw [(collateralTokens_settleRedeem hp).2 account]
      exact Nat.le_add_right ..
  | @transferred p source target tokens targetIsMember hp hplan =>
      cases targetIsMember with
      | false => exact collateralTokens_settleMove_le_of_not_isMember hplan hm account
      | true =>
          have hne : target ≠ account := fun heq => hcall ⟨heq, rfl⟩
          obtain ⟨-, counted, -, hcollateral⟩ := collateralTokens_settleMove_of_transfer hp hplan
          have hafter := hcollateral account
          rw [if_neg hne] at hafter
          omega
  | @seized p liquidator borrower _ _ hp hplan =>
      have hne : liquidator ≠ account := hcall
      have hafter := collateralTokens_settleMove_of_seizure hp hplan account
      rw [if_neg hne] at hafter
      omega
  | @registered holder _ hplan =>
      have hne : holder ≠ account := hcall
      obtain ⟨counted, -, hcollateral⟩ := collateralTokens_settleRegistration_of_register hplan
      rw [hcollateral account, if_neg hne]
      exact le_rfl
  | unregistered hplan =>
      rw [collateralTokens_settleRegistration_of_unregister hplan account]
      exact Nat.le_add_right ..
  | accrued | borrowed | repaid | lent | reservesAdded | reservesReduced | reserveFactorSet
  | rateModelSet => exact le_rfl
  | capped hkind =>
      rw [collateralTokens_eq m, hkind]
      exact le_rfl

/-- Who unregisters has no registered tokens left. -/
theorem collateralTokens_of_unregister (hm : m.registersCollateral = true)
    (hperform : m.perform (.unregister account) = .ok (m', events)) :
    m'.collateralTokens account = 0 := by
  obtain ⟨plan, hplan, rfl, -⟩ := perform_unregister_eq_ok.mp hperform
  cases plan with
  | none =>
      rw [Option.map_none, MarketKind.commit_none]
      obtain ⟨ledger, hledger⟩ := registersCollateral_eq_true.mp hm
      rw [collateralTokens_of_ledger?_eq_some hledger]
      simp only [planUnregister, hledger] at hplan
      split at hplan
      next hzero => exact hzero
      next => simp at hplan
  | some plan =>
      rw [Option.map_some, ← commitCollateral_eq]
      have hafter := collateralTokens_settleRegistration_of_unregister hplan account
      simp only [if_true, settleRegistration] at hafter
      exact Amount.eq_zero_iff.mpr (by omega)

/-- A seizure takes registered tokens. -/
theorem le_collateralTokens_of_seize {liquidator : AccountId} {now : UInt64}
    (hperform : m.perform (.seize liquidator account tokens now) = .ok (m', events)) :
    tokens.toNat ≤ (m.collateralTokens account).toNat := by
  obtain ⟨p, hp, -⟩ := perform_seize_eq_ok.mp hperform
  obtain ⟨hfits, hcollateral⟩ := planMove_fits (planSeizure_eq_ok.mp hp).2
  have hafter := collateralTokens_settleMove_of_seizure hfits hcollateral account
  rw [if_pos rfl, if_neg (Ne.symm hfits.ne)] at hafter
  omega

end Market

end MoneyMarket
