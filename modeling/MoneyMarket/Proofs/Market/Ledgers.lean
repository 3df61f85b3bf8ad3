import MoneyMarket.Proofs.Drafts
import MoneyMarket.Proofs.Market.Consistency
import MoneyMarket.Proofs.Market.Debts

/-! # The ledgers of a market

A market keeps what accounts hold, what they owe and, where collateral is
registered, what they have registered. None of these has an entry for nothing,
and the totals are the totals of the entries.
-/

namespace MoneyMarket

open Market

variable {m m' : Market} {account minter source target : AccountId} {tokens removed : Amount}
  {plan : Option CollateralPlan} {call : Call} {now : UInt64}

/-! ## Plans of operations are drafts -/

theorem CollateralPlan.eq_of_mem_unless_isEmpty {p q : CollateralPlan}
    (hq : q ∈ if p.isEmpty then none else some p) : q = p := by
  split at hq
  · cases hq
  · exact (Option.mem_some.mp hq).symm

/-- A plan for a kind of market is a draft of its ledger, if it has one. -/
def MarketKind.Drafts (k : MarketKind) (plan : Option CollateralPlan) : Prop :=
  ∀ ledger, k.ledger? = some ledger → ∀ p ∈ plan, ledger.Draft p

namespace Market

theorem drafts_mintCollateral {isMember : Bool}
    (hplan : m.mintCollateral minter tokens isMember = .ok plan) : m.kind.Drafts plan := by
  intro ledger hledger p hp
  simp only [mintCollateral, hledger] at hplan
  split at hplan
  · simp only [bind_eq_ok, pure_eq_ok] at hplan
    obtain ⟨registered, hregister, rfl⟩ := hplan
    cases hp
    exact .registered .unchanged hregister
  · cases pure_eq_ok.mp hplan
    cases hp

theorem drafts_releaseCollateral
    (hplan : m.releaseCollateral account tokens = .ok (removed, plan)) : m.kind.Drafts plan := by
  intro ledger hledger p hp
  simp only [releaseCollateral, hledger, bind_eq_ok, pure_eq_ok, Prod.mk.injEq] at hplan
  obtain ⟨released, hrelease, -, rfl⟩ := hplan
  cases CollateralPlan.eq_of_mem_unless_isEmpty hp
  exact .released .unchanged hrelease

theorem drafts_transferCollateral {targetIsMember : Bool}
    (hplan : m.transferCollateral source target tokens targetIsMember = .ok (removed, plan)) :
    m.kind.Drafts plan := by
  intro ledger hledger p hp
  simp only [transferCollateral, hledger, bind_eq_ok] at hplan
  obtain ⟨released, hrelease, hplan⟩ := hplan
  cases targetIsMember with
  | true =>
      simp only [if_true, bind_eq_ok, pure_eq_ok, Prod.mk.injEq] at hplan
      obtain ⟨registered, hregister, -, rfl⟩ := hplan
      cases CollateralPlan.eq_of_mem_unless_isEmpty hp
      exact .registered (.released .unchanged hrelease) hregister
  | false =>
      simp only [Bool.false_eq_true, if_false, pure_bind, pure_eq_ok, Prod.mk.injEq] at hplan
      obtain ⟨-, rfl⟩ := hplan
      cases CollateralPlan.eq_of_mem_unless_isEmpty hp
      exact .released .unchanged hrelease

theorem drafts_seizeCollateral
    (hplan : m.seizeCollateral source target tokens = .ok (removed, plan)) :
    m.kind.Drafts plan := by
  intro ledger hledger p hp
  simp only [seizeCollateral, hledger, bind_eq_ok, pure_eq_ok, Prod.mk.injEq] at hplan
  obtain ⟨moved, hmove, -, rfl⟩ := hplan
  cases CollateralPlan.eq_of_mem_unless_isEmpty hp
  exact .moved .unchanged hmove

theorem drafts_planRegister (hplan : m.planRegister account = .ok plan) : m.kind.Drafts plan := by
  intro ledger hledger p hp
  simp only [planRegister, hledger, bind_eq_ok, pure_eq_ok] at hplan
  obtain ⟨registered, hregister, rfl⟩ := hplan
  cases CollateralPlan.eq_of_mem_unless_isEmpty hp
  exact .registered .unchanged hregister

theorem drafts_planUnregister {p : CollateralPlan}
    (hplan : m.planUnregister account = .ok (some (p, tokens))) : m.kind.Drafts (some p) := by
  intro ledger hledger q hq
  cases hq
  simp only [planUnregister, hledger] at hplan
  split at hplan
  · cases pure_eq_ok.mp hplan
  · simp only [bind_eq_ok, pure_eq_ok, Option.some.injEq, Prod.mk.injEq] at hplan
    obtain ⟨released, hrelease, rfl, -⟩ := hplan
    exact .released .unchanged hrelease

/-- What a call does to the kind of a market: it commits a draft or sets the
cap. -/
theorem Change.kind_eq (hchange : Change m call m') :
    (∃ plan, m.kind.Drafts plan ∧ m'.kind = m.kind.commit plan) ∨
      ∃ ledger cap, call = .setCollateralCap cap ∧ m.kind = .collateralCap ledger ∧
        m'.kind = .collateralCap { ledger with cap } := by
  have hnone : m.kind.Drafts none ∧ m.kind = m.kind.commit none := by
    refine ⟨?_, ?_⟩
    · rintro ledger - p ⟨⟩
    · cases m.kind <;> rfl
  cases hchange with
  | minted hp =>
      rw [settleMint_fst]
      exact .inl ⟨_, drafts_mintCollateral hp.collateral, rfl⟩
  | redeemed hp | underlyingRedeemed hp =>
      rw [settleRedeem_fst]
      exact .inl ⟨_, drafts_releaseCollateral hp.collateral, rfl⟩
  | transferred hp hplan =>
      rw [settleMove_fst]
      exact .inl ⟨_, drafts_transferCollateral hplan, rfl⟩
  | seized hp hplan =>
      rw [settleMove_fst]
      exact .inl ⟨_, drafts_seizeCollateral hplan, rfl⟩
  | registered hplan =>
      rw [settleRegistration, commitCollateral_eq]
      exact .inl ⟨_, drafts_planRegister hplan, rfl⟩
  | unregistered hplan =>
      rw [settleRegistration, commitCollateral_eq]
      exact .inl ⟨_, drafts_planUnregister hplan, rfl⟩
  | capped hkind => exact .inr ⟨_, _, rfl, hkind, rfl⟩
  | nothing | accrued | borrowed | repaid | lent | reservesAdded | reservesReduced
  | reserveFactorSet | rateModelSet => exact .inl ⟨none, hnone⟩

/-! ## Entries -/

/-- What an account is known to owe is not nothing. -/
def NoZeroDebts (m : Market) : Prop :=
  ∀ account debt, m.debts.get? account = some debt → debt.principal ≠ 0

theorem NoZeroDebts.setDebt (hm : m.NoZeroDebts) (borrower : AccountId) (principal : Amount) :
    (m.setDebt borrower principal).NoZeroDebts := by
  intro account debt hdebt
  rw [get?_setDebt] at hdebt
  split_ifs at hdebt with heq hzero
  · cases hdebt
    exact hzero
  · exact hm account debt hdebt

end Market

/-- The ledger of a kind of market, if it has one, is balanced and has no
entries for nothing. -/
def MarketKind.Orderly (k : MarketKind) : Prop :=
  ∀ ledger, k.ledger? = some ledger → ledger.Balanced ∧ ledger.tokens.NoZeros

theorem MarketKind.Orderly.commit {k : MarketKind} (hk : k.Orderly) (hplan : k.Drafts plan) :
    (k.commit plan).Orderly := by
  intro committed hcommitted
  rw [ledger?_commit] at hcommitted
  obtain ⟨ledger, hledger, rfl⟩ := Option.map_eq_some_iff.mp hcommitted
  obtain ⟨hbalanced, hzeros⟩ := hk ledger hledger
  cases plan with
  | none => exact ⟨hbalanced, hzeros⟩
  | some p =>
      have hdraft : ledger.Draft p := hplan ledger hledger p rfl
      exact ⟨hdraft.balanced hbalanced, CollateralLedger.noZeros_commit p hzeros⟩

/-- A consistent market whose ledgers have the right totals and no entries for
nothing. -/
structure Market.Orderly (m : Market) : Prop extends m.Consistent where
  balances : m.balances.NoZeros
  debts : m.NoZeroDebts
  kind : m.kind.Orderly

theorem Market.IsNew.orderly (hm : m.IsNew) : m.Orderly := by
  refine { hm.consistent with balances := ?_, debts := ?_, kind := ?_ }
  · rw [hm.balances]
    exact Balances.noZeros_empty
  · intro account debt hdebt
    rw [hm.debts] at hdebt
    cases hdebt
  · intro ledger hledger
    obtain ⟨htotal, htokens⟩ := hm.ledger ledger hledger
    rw [CollateralLedger.Balanced, htotal, htokens]
    exact ⟨rfl, Balances.noZeros_empty⟩

namespace Market.Orderly

theorem change_balances (hm : m.Orderly) (hchange : Change m call m') : m'.balances.NoZeros := by
  cases hchange with
  | minted =>
      rw [settleMint_fst]
      exact hm.balances.set _ _
  | redeemed | underlyingRedeemed =>
      rw [settleRedeem_fst]
      exact hm.balances.set _ _
  | transferred | seized =>
      rw [settleMove_fst]
      exact (hm.balances.set _ _).set _ _
  | registered | unregistered =>
      rw [settleRegistration, commitCollateral_eq]
      exact hm.balances
  | nothing | accrued | borrowed | repaid | lent | reservesAdded | reservesReduced
  | reserveFactorSet | rateModelSet | capped => exact hm.balances

theorem change_debts (hm : m.Orderly) (hchange : Change m call m') : m'.NoZeroDebts := by
  cases hchange.debtChange with
  | untouched _ _ hdebts =>
      intro account debt hdebt
      rw [hdebts] at hdebt
      exact hm.debts account debt hdebt
  | accrued => exact hm.debts
  | @borrowed p =>
      have hkept : NoZeroDebts { m with cash := p.cash, totalBorrows := p.totalBorrows } := hm.debts
      exact hkept.setDebt p.borrower p.debt
  | @repaid p =>
      have hkept : NoZeroDebts { m with cash := p.cash, totalBorrows := p.totalBorrows } := hm.debts
      exact hkept.setDebt p.borrower p.debt

theorem change (hm : m.Orderly) (hchange : Change m call m') : m'.Orderly := by
  refine { hm.toConsistent.change hchange with
    balances := hm.change_balances hchange
    debts := hm.change_debts hchange
    kind := ?_ }
  rcases hchange.kind_eq with ⟨plan, hplan, hkind⟩ | ⟨ledger, cap, -, hbefore, hkind⟩
  · rw [hkind]
    exact hm.kind.commit hplan
  · intro capped hcapped
    rw [hkind] at hcapped
    cases hcapped
    exact hm.kind ledger (by rw [hbefore]; rfl)

end Market.Orderly

theorem Market.Reachable.orderly (hm : m.Reachable) : m.Orderly :=
  hm.invariant (fun _ => IsNew.orderly) fun _ _ _ => Orderly.change

end MoneyMarket
