import MoneyMarket.Market.Terms
import MoneyMarket.Proofs.Market.Plans

/-! # Runs of a market

A market is set up empty and then changes by calls only. A planned operation
is one call: its plan is made and settled on the same market. The markets that
runs of successful calls lead to are the reachable ones, and what one call can
do to a market is a change of one of a few kinds.
-/

namespace MoneyMarket.Market

/-! ## Setting up -/

/-- Markets as they are set up. -/
inductive Created : Market → Prop
  | make {id : MarketId} {version : MarketVersion} {rateModel : RateModel}
      {initialExchangeRate : Wad} {now : UInt64} {m : Market}
      (hmake : make id version rateModel initialExchangeRate now = .ok m) : Created m
  | withReserveFactor {m m' : Market} {reserveFactor : Wad} (hm : Created m)
      (hwith : m.withReserveFactor reserveFactor = .ok m') : Created m'
  | withBorrowRateMax {m : Market} (borrowRateMax : Wad) (hm : Created m) :
      Created (m.withBorrowRateMax borrowRateMax)
  | withFlashFeeBips {m : Market} (flashFeeBips : UInt64) (hm : Created m) :
      Created (m.withFlashFeeBips flashFeeBips)
  | withCollateralCap {m : Market} (cap : Amount) (hm : Created m) :
      Created (m.withCollateralCap cap)

/-- Terms are set up part by part. -/
theorem created_of_ofTerms {id : MarketId} {terms : MarketTerms} {now : UInt64} {m : Market}
    (hm : ofTerms id terms now = .ok m) : Created m := by
  simp only [ofTerms, bind_eq_ok, pure_eq_ok] at hm
  obtain ⟨rateModel, -, initialExchangeRate, -, made, hmake, reserveFactor, -, factored, hwith,
    borrowRateMax, -, rfl⟩ := hm
  have hfactored : Created factored := .withReserveFactor (.make hmake) hwith
  exact .withCollateralCap _ (.withFlashFeeBips _ (.withBorrowRateMax _ hfactored))

/-- Nobody has dealt with the market. -/
structure IsNew (m : Market) : Prop where
  cash : m.cash = 0
  borrows : m.totalBorrows = 0
  reserves : m.totalReserves = 0
  supply : m.totalSupply = 0
  index : m.borrowIndex = 1
  balances : m.balances = ∅
  debts : m.debts = ∅
  reserveFactor : m.reserveFactor ≤ 1
  initialRate : m.initialExchangeRate ≠ 0
  ledger : ∀ ledger, m.kind.ledger? = some ledger → ledger.total = 0 ∧ ledger.tokens = ∅

theorem Created.isNew {m : Market} (hm : Created m) : m.IsNew := by
  induction hm with
  | @make id version rateModel initialExchangeRate now m hmake =>
      simp only [Market.make, guard_eq_ok, pure_eq_ok] at hmake
      obtain ⟨hrate, rfl⟩ := hmake
      refine ⟨rfl, rfl, rfl, rfl, rfl, rfl, rfl, Nat.zero_le _, hrate, ?_⟩
      intro ledger hledger
      cases version <;> cases hledger
      exact ⟨rfl, rfl⟩
  | @withReserveFactor m m' reserveFactor _ hwith ih =>
      unfold Market.withReserveFactor at hwith
      split at hwith
      next => cases hwith
      next hle =>
        cases hwith
        exact { ih with reserveFactor := Nat.le_of_not_lt hle }
  | withBorrowRateMax _ _ ih => exact { ih with }
  | withFlashFeeBips _ _ ih => exact { ih with }
  | @withCollateralCap m cap _ ih =>
      unfold Market.withCollateralCap
      split
      next ledger hkind =>
        refine { ih with ledger := ?_ }
        intro capped hcapped
        cases hcapped
        exact ih.ledger ledger (by rw [hkind]; rfl)
      next => exact ih

/-! ## Calls -/

/-- What can be done with a market. -/
inductive Call where
  | accrue (now : UInt64)
  | mint (minter : AccountId) (amount : Amount) (isMember : Bool) (now : UInt64)
  | redeem (redeemer : AccountId) (tokens : Amount) (now : UInt64)
  | redeemUnderlying (redeemer : AccountId) (amount : Amount) (now : UInt64)
  | borrow (borrower : AccountId) (amount : Amount) (now : UInt64)
  | repay (payer borrower : AccountId) (amount : Amount) (now : UInt64)
  | transfer (source target : AccountId) (tokens : Amount) (targetIsMember : Bool)
  | seize (liquidator borrower : AccountId) (tokens : Amount) (now : UInt64)
  | flashloan (receiver : AccountId) (amount repaid : Amount) (now : UInt64)
  | register (account : AccountId)
  | unregister (account : AccountId)
  | addReserves (benefactor : AccountId) (amount : Amount) (now : UInt64)
  | reduceReserves (admin : AccountId) (amount : Amount) (now : UInt64)
  | setReserveFactor (reserveFactor : Wad) (now : UInt64)
  | setRateModel (rateModel : RateModel) (now : UInt64)
  | setCollateralCap (cap : Amount)
  deriving DecidableEq

/-- The time of a call, if it has one. -/
def Call.time? : Call → Option UInt64
  | .accrue now | .mint _ _ _ now | .redeem _ _ now | .redeemUnderlying _ _ now | .borrow _ _ now
  | .repay _ _ _ now | .seize _ _ _ now | .flashloan _ _ _ now | .addReserves _ _ now
  | .reduceReserves _ _ now | .setReserveFactor _ now | .setRateModel _ now => some now
  | .transfer .. | .register _ | .unregister _ | .setCollateralCap _ => none

/-- The market after a call, and the events of the call. -/
def perform (m : Market) : Call → Except MarketError (Market × List Event)
  | .accrue now => do
      let (m', event) ← m.accrue now
      return (m', event.toList)
  | .mint minter amount isMember now =>
      return m.settleMint (← m.planMint minter amount isMember now)
  | .redeem redeemer tokens now => return m.settleRedeem (← m.planRedeem redeemer tokens now)
  | .redeemUnderlying redeemer amount now =>
      return m.settleRedeem (← m.planRedeemUnderlying redeemer amount now)
  | .borrow borrower amount now => return m.settleBorrow (← m.planBorrow borrower amount now)
  | .repay payer borrower amount now =>
      return m.settleRepay (← m.planRepay payer borrower amount now)
  | .transfer source target tokens targetIsMember =>
      return m.settleMove (← m.planTransfer source target tokens targetIsMember)
  | .seize liquidator borrower tokens now =>
      return m.settleMove (← m.planSeizure liquidator borrower tokens now)
  | .flashloan receiver amount repaid now =>
      return m.settleFlashloan (← m.planFlashloan receiver amount repaid now)
  | .register account => do
      match ← m.planRegister account with
      | some plan => return m.settleRegistration plan
      | none => return (m, [])
  | .unregister account => do
      match ← m.planUnregister account with
      | some (plan, _) => return m.settleRegistration plan
      | none => return (m, [])
  | .addReserves benefactor amount now => do
      let (m', event) ← m.addReserves benefactor amount now
      return (m', [event])
  | .reduceReserves admin amount now => do
      let (m', event) ← m.reduceReserves admin amount now
      return (m', [event])
  | .setReserveFactor reserveFactor now => do
      let (m', event) ← m.setReserveFactor reserveFactor now
      return (m', [event])
  | .setRateModel rateModel now => return (← m.setRateModel rateModel now, [])
  | .setCollateralCap cap => return (← m.setCollateralCap cap, [])

/-! ## Calls that succeed -/

section Performing

variable {m m' : Market} {events : List Event} {account borrower target : AccountId}
  {amount tokens repaid cap : Amount} {isMember : Bool} {reserveFactor : Wad}
  {rateModel : RateModel} {now : UInt64}

theorem settled_eq_ok {α : Type} {plan : Except MarketError α} {settle : α → Market × List Event} :
    (do return settle (← plan)) = Except.ok (m', events) ↔
      ∃ p, plan = .ok p ∧ m' = (settle p).1 ∧ events = (settle p).2 := by
  simp only [bind_eq_ok, pure_eq_ok, Prod.ext_iff, eq_comm (b := m'), eq_comm (b := events)]

theorem perform_accrue_eq_ok : m.perform (.accrue now) = .ok (m', events) ↔
    ∃ event, m.accrue now = .ok (m', event) ∧ events = event.toList := by
  simp [perform, eq_comm (b := m'), eq_comm (b := events)]

theorem perform_mint_eq_ok : m.perform (.mint account amount isMember now) = .ok (m', events) ↔
    ∃ p, m.planMint account amount isMember now = .ok p ∧
      m' = (m.settleMint p).1 ∧ events = (m.settleMint p).2 :=
  settled_eq_ok

theorem perform_redeem_eq_ok : m.perform (.redeem account tokens now) = .ok (m', events) ↔
    ∃ p, m.planRedeem account tokens now = .ok p ∧
      m' = (m.settleRedeem p).1 ∧ events = (m.settleRedeem p).2 :=
  settled_eq_ok

theorem perform_redeemUnderlying_eq_ok :
    m.perform (.redeemUnderlying account amount now) = .ok (m', events) ↔
      ∃ p, m.planRedeemUnderlying account amount now = .ok p ∧
        m' = (m.settleRedeem p).1 ∧ events = (m.settleRedeem p).2 :=
  settled_eq_ok

theorem perform_borrow_eq_ok : m.perform (.borrow borrower amount now) = .ok (m', events) ↔
    ∃ p, m.planBorrow borrower amount now = .ok p ∧
      m' = (m.settleBorrow p).1 ∧ events = (m.settleBorrow p).2 :=
  settled_eq_ok

theorem perform_repay_eq_ok : m.perform (.repay account borrower amount now) = .ok (m', events) ↔
    ∃ p, m.planRepay account borrower amount now = .ok p ∧
      m' = (m.settleRepay p).1 ∧ events = (m.settleRepay p).2 :=
  settled_eq_ok

theorem perform_transfer_eq_ok :
    m.perform (.transfer account target tokens isMember) = .ok (m', events) ↔
      ∃ p, m.planTransfer account target tokens isMember = .ok p ∧
        m' = (m.settleMove p).1 ∧ events = (m.settleMove p).2 :=
  settled_eq_ok

theorem perform_seize_eq_ok : m.perform (.seize account borrower tokens now) = .ok (m', events) ↔
    ∃ p, m.planSeizure account borrower tokens now = .ok p ∧
      m' = (m.settleMove p).1 ∧ events = (m.settleMove p).2 :=
  settled_eq_ok

theorem perform_flashloan_eq_ok :
    m.perform (.flashloan account amount repaid now) = .ok (m', events) ↔
      ∃ p, m.planFlashloan account amount repaid now = .ok p ∧
        m' = (m.settleFlashloan p).1 ∧ events = (m.settleFlashloan p).2 :=
  settled_eq_ok

/-- Registering commits the plan for it, if there is one. -/
theorem perform_register_eq_ok : m.perform (.register account) = .ok (m', events) ↔
    ∃ plan, m.planRegister account = .ok plan ∧ m' = { m with kind := m.kind.commit plan } ∧
      events = plan.elim [] m.collateralEvents := by
  simp only [perform, bind_eq_ok]
  refine exists_congr fun plan => and_congr_right fun _ => ?_
  cases plan <;>
    simp [settleRegistration, commitCollateral_eq, pure_eq_ok, eq_comm (b := m'),
      eq_comm (b := events)]

/-- Unregistering commits the plan for it, if there is one. -/
theorem perform_unregister_eq_ok : m.perform (.unregister account) = .ok (m', events) ↔
    ∃ plan, m.planUnregister account = .ok plan ∧
      m' = { m with kind := m.kind.commit (plan.map Prod.fst) } ∧
      events = (plan.map Prod.fst).elim [] m.collateralEvents := by
  simp only [perform, bind_eq_ok]
  refine exists_congr fun plan => and_congr_right fun _ => ?_
  cases plan <;>
    simp [settleRegistration, commitCollateral_eq, pure_eq_ok, eq_comm (b := m'),
      eq_comm (b := events)]

theorem perform_addReserves_eq_ok :
    m.perform (.addReserves account amount now) = .ok (m', events) ↔
      ∃ event, m.addReserves account amount now = .ok (m', event) ∧ events = [event] := by
  simp [perform, eq_comm (b := m'), eq_comm (b := events)]

theorem perform_reduceReserves_eq_ok :
    m.perform (.reduceReserves account amount now) = .ok (m', events) ↔
      ∃ event, m.reduceReserves account amount now = .ok (m', event) ∧ events = [event] := by
  simp [perform, eq_comm (b := m'), eq_comm (b := events)]

theorem perform_setReserveFactor_eq_ok :
    m.perform (.setReserveFactor reserveFactor now) = .ok (m', events) ↔
      ∃ event, m.setReserveFactor reserveFactor now = .ok (m', event) ∧ events = [event] := by
  simp [perform, eq_comm (b := m'), eq_comm (b := events)]

theorem perform_setRateModel_eq_ok :
    m.perform (.setRateModel rateModel now) = .ok (m', events) ↔
      m.setRateModel rateModel now = .ok m' ∧ events = [] := by
  simp [perform, eq_comm (b := m'), eq_comm (b := events)]

theorem perform_setCollateralCap_eq_ok :
    m.perform (.setCollateralCap cap) = .ok (m', events) ↔
      m.setCollateralCap cap = .ok m' ∧ events = [] := by
  simp [perform, eq_comm (b := m'), eq_comm (b := events)]

end Performing

/-! ## Runs -/

/-- Calls one after the other, all of which have to succeed. -/
def run (m : Market) : List Call → Except MarketError (Market × List Event)
  | [] => return (m, [])
  | call :: rest => do
      let (m', events) ← m.perform call
      let (m'', later) ← m'.run rest
      return (m'', events ++ later)

theorem run_cons_eq_ok {m m'' : Market} {call : Call} {rest : List Call} {all : List Event} :
    m.run (call :: rest) = .ok (m'', all) ↔
      ∃ m' events later, m.perform call = .ok (m', events) ∧ m'.run rest = .ok (m'', later) ∧
        events ++ later = all := by
  simp only [run, bind_eq_ok, pure_eq_ok, Prod.exists, Prod.mk.injEq]
  constructor
  · rintro ⟨m', events, hperform, _, later, hrest, rfl, hall⟩
    exact ⟨m', events, later, hperform, hrest, hall⟩
  · rintro ⟨m', events, later, hperform, hrest, hall⟩
    exact ⟨m', events, hperform, m'', later, hrest, rfl, hall⟩

theorem run_cons_eq_error {m : Market} {call : Call} {rest : List Call} {e : MarketError} :
    m.run (call :: rest) = .error e ↔ m.perform call = .error e ∨
      ∃ m' events, m.perform call = .ok (m', events) ∧ m'.run rest = .error e := by
  simp only [run, bind_eq_error, Prod.exists, pure_ne_error, and_false, exists_false, or_false]

/-! ## Changes -/

/-- What a successful call does to a market. -/
inductive Change (m : Market) : Call → Market → Prop
  | nothing (call : Call) : Change m call m
  | accrued {a : Accrual} {now : UInt64} (ha : a.Fits m) : Change m (.accrue now) (m.book now a)
  | minted {p : MintPlan} {minter : AccountId} {amount : Amount} {isMember : Bool} {now : UInt64}
      (hp : p.Fits m minter amount isMember) :
      Change m (.mint minter amount isMember now) (m.settleMint p).1
  | redeemed {p : RedeemPlan} {redeemer : AccountId} {tokens : Amount} {now : UInt64}
      (hp : p.Fits m redeemer) : Change m (.redeem redeemer tokens now) (m.settleRedeem p).1
  | underlyingRedeemed {p : RedeemPlan} {redeemer : AccountId} {amount : Amount} {now : UInt64}
      (hp : p.Fits m redeemer) :
      Change m (.redeemUnderlying redeemer amount now) (m.settleRedeem p).1
  | borrowed {p : BorrowPlan} {borrower : AccountId} {amount : Amount} {now : UInt64}
      (hp : p.Fits m borrower amount) :
      Change m (.borrow borrower amount now) (m.settleBorrow p).1
  | repaid {p : RepayPlan} {payer borrower : AccountId} {amount : Amount} {now : UInt64}
      (hp : p.Fits m borrower) : Change m (.repay payer borrower amount now) (m.settleRepay p).1
  | transferred {p : MovePlan} {source target : AccountId} {tokens : Amount}
      {targetIsMember : Bool} (hp : p.Fits m source target tokens)
      (hcollateral : m.transferCollateral source target tokens targetIsMember =
        .ok (p.collateralTokensRemoved, p.collateral)) :
      Change m (.transfer source target tokens targetIsMember) (m.settleMove p).1
  | seized {p : MovePlan} {liquidator borrower : AccountId} {tokens : Amount} {now : UInt64}
      (hp : p.Fits m borrower liquidator tokens)
      (hcollateral : m.seizeCollateral borrower liquidator tokens =
        .ok (p.collateralTokensRemoved, p.collateral)) :
      Change m (.seize liquidator borrower tokens now) (m.settleMove p).1
  | lent {p : FlashloanPlan} {receiver : AccountId} {amount repaid : Amount} {now : UInt64}
      (hp : p.Fits m) : Change m (.flashloan receiver amount repaid now) (m.settleFlashloan p).1
  | registered {account : AccountId} {plan : CollateralPlan}
      (hplan : m.planRegister account = .ok (some plan)) :
      Change m (.register account) (m.settleRegistration plan).1
  | unregistered {account : AccountId} {plan : CollateralPlan} {tokens : Amount}
      (hplan : m.planUnregister account = .ok (some (plan, tokens))) :
      Change m (.unregister account) (m.settleRegistration plan).1
  | reservesAdded {benefactor : AccountId} {amount cash totalReserves : Amount} {now : UInt64}
      (hcash : cash.toNat = m.cash.toNat + amount.toNat)
      (hreserves : totalReserves.toNat = m.totalReserves.toNat + amount.toNat) :
      Change m (.addReserves benefactor amount now) { m with cash, totalReserves }
  | reservesReduced {admin : AccountId} {amount cash totalReserves : Amount} {now : UInt64}
      (hcash : m.cash.toNat = cash.toNat + amount.toNat)
      (hreserves : m.totalReserves.toNat = totalReserves.toNat + amount.toNat) :
      Change m (.reduceReserves admin amount now) { m with cash, totalReserves }
  | reserveFactorSet {reserveFactor : Wad} {now : UInt64} (hle : reserveFactor ≤ 1) :
      Change m (.setReserveFactor reserveFactor now) { m with reserveFactor }
  | rateModelSet {rateModel : RateModel} {now : UInt64} :
      Change m (.setRateModel rateModel now) { m with rateModel }
  | capped {ledger : CollateralLedger} {cap : Amount} (hkind : m.kind = .collateralCap ledger) :
      Change m (.setCollateralCap cap) { m with kind := .collateralCap { ledger with cap } }

theorem change_of_perform {m m' : Market} {call : Call} {events : List Event}
    (hperform : m.perform call = .ok (m', events)) : Change m call m' := by
  cases call with
  | accrue now =>
      obtain ⟨event, haccrue, -⟩ := perform_accrue_eq_ok.mp hperform
      rcases accrue_eq_ok haccrue with rfl | ⟨a, ha, rfl⟩
      · exact .nothing _
      · exact .accrued ha
  | mint minter amount isMember now =>
      obtain ⟨p, hp, rfl, -⟩ := perform_mint_eq_ok.mp hperform
      exact .minted (planMint_fits hp)
  | redeem redeemer tokens now =>
      obtain ⟨p, hp, rfl, -⟩ := perform_redeem_eq_ok.mp hperform
      exact .redeemed (planRedeem_fits hp)
  | redeemUnderlying redeemer amount now =>
      obtain ⟨p, hp, rfl, -⟩ := perform_redeemUnderlying_eq_ok.mp hperform
      exact .underlyingRedeemed (planRedeemUnderlying_fits hp)
  | borrow borrower amount now =>
      obtain ⟨p, hp, rfl, -⟩ := perform_borrow_eq_ok.mp hperform
      exact .borrowed (planBorrow_fits hp)
  | repay payer borrower amount now =>
      obtain ⟨p, hp, rfl, -⟩ := perform_repay_eq_ok.mp hperform
      exact .repaid (planRepay_fits hp)
  | transfer source target tokens targetIsMember =>
      obtain ⟨p, hp, rfl, -⟩ := perform_transfer_eq_ok.mp hperform
      obtain ⟨hfits, hcollateral⟩ := planMove_fits hp
      exact .transferred hfits hcollateral
  | seize liquidator borrower tokens now =>
      obtain ⟨p, hp, rfl, -⟩ := perform_seize_eq_ok.mp hperform
      obtain ⟨hfits, hcollateral⟩ := planMove_fits (planSeizure_eq_ok.mp hp).2
      exact .seized hfits hcollateral
  | flashloan receiver amount repaid now =>
      obtain ⟨p, hp, rfl, -⟩ := perform_flashloan_eq_ok.mp hperform
      exact .lent (planFlashloan_fits hp)
  | register account =>
      obtain ⟨plan, hplan, rfl, -⟩ := perform_register_eq_ok.mp hperform
      cases plan with
      | none =>
          rw [MarketKind.commit_none]
          exact .nothing _
      | some plan =>
          rw [← commitCollateral_eq]
          exact .registered hplan
  | unregister account =>
      obtain ⟨plan, hplan, rfl, -⟩ := perform_unregister_eq_ok.mp hperform
      cases plan with
      | none =>
          rw [Option.map_none, MarketKind.commit_none]
          exact .nothing _
      | some plan =>
          rw [Option.map_some, ← commitCollateral_eq]
          exact .unregistered hplan
  | addReserves benefactor amount now =>
      obtain ⟨event, hadd, -⟩ := perform_addReserves_eq_ok.mp hperform
      obtain ⟨cash, totalReserves, hcash, hreserves, rfl⟩ := addReserves_eq_ok hadd
      exact .reservesAdded hcash hreserves
  | reduceReserves admin amount now =>
      obtain ⟨event, hreduce, -⟩ := perform_reduceReserves_eq_ok.mp hperform
      obtain ⟨cash, totalReserves, hcash, hreserves, rfl⟩ := reduceReserves_eq_ok hreduce
      exact .reservesReduced hcash hreserves
  | setReserveFactor reserveFactor now =>
      obtain ⟨event, hset, -⟩ := perform_setReserveFactor_eq_ok.mp hperform
      obtain ⟨hle, rfl⟩ := setReserveFactor_eq_ok hset
      exact .reserveFactorSet hle
  | setRateModel rateModel now =>
      obtain ⟨hset, -⟩ := perform_setRateModel_eq_ok.mp hperform
      rw [setRateModel_eq_ok hset]
      exact .rateModelSet
  | setCollateralCap cap =>
      obtain ⟨hset, -⟩ := perform_setCollateralCap_eq_ok.mp hperform
      obtain ⟨ledger, hkind, rfl⟩ := setCollateralCap_eq_ok.mp hset
      exact .capped hkind

/-! ## Reachable markets -/

/-- Markets that calls lead to. -/
inductive Reachable : Market → Prop
  | created {m : Market} (hm : Created m) : Reachable m
  | performed {m m' : Market} {call : Call} {events : List Event} (hm : Reachable m)
      (hperform : m.perform call = .ok (m', events)) : Reachable m'

theorem Reachable.run {m m' : Market} {calls : List Call} {events : List Event}
    (hm : Reachable m) (hrun : m.run calls = .ok (m', events)) : Reachable m' := by
  induction calls generalizing m events with
  | nil =>
      cases pure_eq_ok.mp hrun
      exact hm
  | cons call rest ih =>
      obtain ⟨m₁, first, later, hperform, hrest, -⟩ := run_cons_eq_ok.mp hrun
      exact ih (.performed hm hperform) hrest

theorem run_append {m m' m'' : Market} {calls rest : List Call} {events later : List Event}
    (hrun : m.run calls = .ok (m', events)) (hrest : m'.run rest = .ok (m'', later)) :
    m.run (calls ++ rest) = .ok (m'', events ++ later) := by
  induction calls generalizing m events with
  | nil =>
      cases pure_eq_ok.mp hrun
      exact hrest
  | cons call calls ih =>
      obtain ⟨m₁, first, between, hperform, hcalls, rfl⟩ := run_cons_eq_ok.mp hrun
      exact run_cons_eq_ok.mpr ⟨m₁, first, between ++ later, hperform, ih hcalls,
        (List.append_assoc ..).symm⟩

/-- The reachable markets are the ends of runs from markets as they are set up. -/
theorem reachable_iff_run {m : Market} :
    Reachable m ↔ ∃ m₀ calls events, Created m₀ ∧ m₀.run calls = .ok (m, events) := by
  constructor
  · intro hm
    induction hm with
    | @created m hm => exact ⟨m, [], [], hm, rfl⟩
    | @performed m m' call events _ hperform ih =>
        obtain ⟨m₀, calls, before, hm₀, hrun⟩ := ih
        have hlast : m.run [call] = .ok (m', events ++ []) :=
          run_cons_eq_ok.mpr ⟨m', events, [], hperform, rfl, rfl⟩
        exact ⟨m₀, calls ++ [call], before ++ (events ++ []), hm₀, run_append hrun hlast⟩
  · rintro ⟨m₀, calls, events, hm₀, hrun⟩
    exact (Reachable.created hm₀).run hrun

/-- A market with a supplier and a borrower, some time into the loan. -/
def sample : Market where
  id := ⟨"jUSD"⟩
  kind := .vanilla
  rateModel := .jumpRate ⟨⟨⟨.ofUInt64 1_000_000_000_000⟩, 0, 0⟩, 1, 1⟩
  reserveFactor := ⟨.ofUInt64 100_000_000_000_000_000⟩
  initialExchangeRate := 1
  borrowRateMax := ⟨.ofUInt64 5_000_000_000_000⟩
  flashFeeBips := 8
  cash := .ofUInt64 600_000_000
  totalBorrows := .ofUInt64 400_400_000
  totalReserves := .ofUInt64 40_000
  totalSupply := .ofUInt64 1_000_000_000
  borrowIndex := ⟨.ofUInt64 1_001_000_000_000_000_000⟩
  accrualTimestamp := 1000
  balances := Registry.ofList [(⟨"alice"⟩, .ofUInt64 1_000_000_000)]
  debts := Registry.ofList [(⟨"bob"⟩, ⟨.ofUInt64 400_000_000, 1⟩)]

theorem sample_run : ∃ m₀ events, Created m₀ ∧
    m₀.run [.mint ⟨"alice"⟩ ⟨1_000_000_000, by decide⟩ false 0,
      .borrow ⟨"bob"⟩ ⟨400_000_000, by decide⟩ 0, .accrue 1000] = .ok (sample, events) := by
  have hrun : (do
      let made ← Market.make sample.id .vanilla sample.rateModel 1 0
      let created ← made.withReserveFactor sample.reserveFactor
      let (m, _) ← created.run [.mint ⟨"alice"⟩ ⟨1_000_000_000, by decide⟩ false 0,
        .borrow ⟨"bob"⟩ ⟨400_000_000, by decide⟩ 0, .accrue 1000]
      return m) = .ok sample := by rfl
  simp only [bind_eq_ok, pure_eq_ok, Prod.exists] at hrun
  obtain ⟨made, hmake, created, hcreated, m, events, hrun, rfl⟩ := hrun
  exact ⟨created, events, .withReserveFactor (.make hmake) hcreated, hrun⟩

theorem sample_reachable : Reachable sample := by
  obtain ⟨m₀, events, hm₀, hrun⟩ := sample_run
  exact (Reachable.created hm₀).run hrun

/-- What new markets have and every change keeps, reachable markets have. -/
theorem Reachable.invariant {P : Market → Prop} {m : Market} (hm : Reachable m)
    (hnew : ∀ m, IsNew m → P m) (hchange : ∀ m call m', P m → Change m call m' → P m') : P m := by
  induction hm with
  | created hm => exact hnew _ hm.isNew
  | performed _ hperform ih => exact hchange _ _ _ ih (change_of_perform hperform)

end MoneyMarket.Market
