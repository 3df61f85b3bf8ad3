import MoneyMarket.Controller.Liquidation
import MoneyMarket.Proofs.Controller.Operation
import MoneyMarket.Proofs.Market.Registered
import MoneyMarket.Proofs.Market.Run

/-! # Dealings, successful or not

What a successful dealing was allowed by, and the controller that it leaves.
Each dealing is calls of one or two markets and at most one change of
memberships; nothing else of the controller changes. A dealing that fails
changes nothing, because everything is checked and planned first.
-/

namespace MoneyMarket

open Controller Market

variable {c c' : Controller} {market : MarketId} {now : UInt64} {prices : Prices}
  {events : List Event} {account minter redeemer source target payer borrower receiver : AccountId}
  {amount tokens repaid : Amount}

/-- A call of a listed market succeeds, and nothing else changes. -/
def Controller.Performs (c : Controller) (market : MarketId) (call : Market.Call)
    (c' : Controller) : Prop :=
  ∃ listing state events, c.listed? market = some listing ∧
    listing.state.perform call = .ok (state, events) ∧ c' = c.setState market listing state

namespace Operation

/-! ## Supplying and redeeming -/

theorem mint_eq_ok (hmint : (mint minter market amount now).runOn c = (.ok events, c')) :
    ∃ listing plan, c.listed? market = some listing ∧
      listing.state.planMint minter amount (c.isMember minter market) now = .ok plan ∧
      c.mintVerdict market amount = .ok .allow ∧
      c' = c.setState market listing (listing.state.settleMint plan).1 := by
  simp only [mint, runOn_get_bind, runOn_planOn_bind_eq_ok, runOn_passGate_bind_eq_ok,
    runOn_onMarket_eq_ok] at hmint
  obtain ⟨listing, plan, hlisted, hplan, hverdict, _, hsame, -, rfl⟩ := hmint
  cases hlisted.symm.trans hsame
  exact ⟨listing, plan, hlisted, hplan, hverdict, rfl⟩

theorem redeem_eq_ok
    (hredeem : (redeem redeemer market tokens now prices).runOn c = (.ok events, c')) :
    ∃ listing plan, c.listed? market = some listing ∧
      listing.state.planRedeem redeemer tokens now = .ok plan ∧
      c.redeemVerdict market redeemer plan.collateralTokensRemoved prices = .ok .allow ∧
      c' = c.setState market listing (listing.state.settleRedeem plan).1 := by
  simp only [redeem, runOn_planOn_bind_eq_ok, runOn_passGate_bind_eq_ok, runOn_onMarket_eq_ok]
    at hredeem
  obtain ⟨listing, plan, hlisted, hplan, hverdict, _, hsame, -, rfl⟩ := hredeem
  cases hlisted.symm.trans hsame
  exact ⟨listing, plan, hlisted, hplan, hverdict, rfl⟩

theorem redeemUnderlying_eq_ok
    (hredeem : (redeemUnderlying redeemer market amount now prices).runOn c = (.ok events, c')) :
    ∃ listing plan, c.listed? market = some listing ∧
      listing.state.planRedeemUnderlying redeemer amount now = .ok plan ∧
      c.redeemVerdict market redeemer plan.collateralTokensRemoved prices = .ok .allow ∧
      c' = c.setState market listing (listing.state.settleRedeem plan).1 := by
  simp only [redeemUnderlying, runOn_planOn_bind_eq_ok, runOn_passGate_bind_eq_ok,
    runOn_onMarket_eq_ok] at hredeem
  obtain ⟨listing, plan, hlisted, hplan, hverdict, _, hsame, -, rfl⟩ := hredeem
  cases hlisted.symm.trans hsame
  exact ⟨listing, plan, hlisted, hplan, hverdict, rfl⟩

theorem transfer_eq_ok
    (htransfer : (transfer source target market tokens prices).runOn c = (.ok events, c')) :
    ∃ listing plan, c.listed? market = some listing ∧
      listing.state.planTransfer source target tokens (c.isMember target market) = .ok plan ∧
      c.transferVerdict market source plan.collateralTokensRemoved prices = .ok .allow ∧
      c' = c.setState market listing (listing.state.settleMove plan).1 := by
  simp only [transfer, runOn_get_bind, runOn_planOn_bind_eq_ok, runOn_passGate_bind_eq_ok,
    runOn_onMarket_eq_ok] at htransfer
  obtain ⟨listing, plan, hlisted, hplan, hverdict, _, hsame, -, rfl⟩ := htransfer
  cases hlisted.symm.trans hsame
  exact ⟨listing, plan, hlisted, hplan, hverdict, rfl⟩

theorem atomic_mint : (mint minter market amount now).Atomic :=
  reads_get.bind_atomic fun _ => (reads_planOn _).bind_atomic fun _ =>
    (reads_passGate _).bind_atomic fun _ => atomic_onMarket _

theorem atomic_redeem : (redeem redeemer market tokens now prices).Atomic :=
  (reads_planOn _).bind_atomic fun _ => (reads_passGate _).bind_atomic fun _ => atomic_onMarket _

theorem atomic_redeemUnderlying : (redeemUnderlying redeemer market amount now prices).Atomic :=
  (reads_planOn _).bind_atomic fun _ => (reads_passGate _).bind_atomic fun _ => atomic_onMarket _

theorem atomic_transfer : (transfer source target market tokens prices).Atomic :=
  reads_get.bind_atomic fun _ => (reads_planOn _).bind_atomic fun _ =>
    (reads_passGate _).bind_atomic fun _ => atomic_onMarket _

/-! ## Entering and leaving markets -/

/-- A member has nothing to do; who enters registers its tokens. -/
theorem enterMarket_eq_ok (henter : (enterMarket account market).runOn c = (.ok events, c')) :
    ∃ listing, c.listed? market = some listing ∧
      (c.isMember account market = true ∧ c' = c ∨
        c.isMember account market = false ∧ ∃ state registered,
          listing.state.perform (.register account) = .ok (state, registered) ∧
          c' = (c.setState market listing state).setMemberships
            (c.memberships.enter account market)) := by
  simp only [enterMarket, runOn_get_bind, runOn_liftM_bind_eq_ok, listed_eq_ok] at henter
  obtain ⟨listing, hlisted, henter⟩ := henter
  refine ⟨listing, hlisted, ?_⟩
  split at henter
  next hmember =>
    exact .inl ⟨hmember, (runOn_pure_eq_ok.mp henter).2⟩
  next hmember =>
    simp only [runOn_liftM_bind_eq_ok, within_eq_ok] at henter
    obtain ⟨plan, hplan, henter⟩ := henter
    refine .inr ⟨by simpa using hmember, ?_⟩
    cases plan with
    | none =>
        simp only [pure_bind, runOn_modify_bind, runOn_pure_eq_ok] at henter
        refine ⟨listing.state, [], perform_register_eq_ok.mpr ⟨_, hplan, by simp, rfl⟩, ?_⟩
        rw [setState_self hlisted]
        exact henter.2
    | some plan =>
        simp only [runOn_bind_eq_ok, runOn_onMarket_eq_ok, runOn_modify_bind, runOn_pure_eq_ok]
          at henter
        obtain ⟨changes, c₁, ⟨_, hsame, hchanges, rfl⟩, -, rfl⟩ := henter
        cases hlisted.symm.trans hsame
        exact ⟨_, _, perform_register_eq_ok.mpr ⟨_, hplan, commitCollateral_eq .., rfl⟩, rfl⟩

/-- Who leaves owes nothing in the market, does not need its tokens there, and
unregisters them. -/
theorem leaveMarket_eq_ok
    (hleave : (leaveMarket account market prices).runOn c = (.ok events, c')) :
    ∃ listing, c.listed? market = some listing ∧
      (c.isMember account market = false ∧ c' = c ∨
        c.isMember account market = true ∧ listing.state.hasDebt account = false ∧
          c.redeemVerdict market account (listing.state.collateralTokens account) prices =
            .ok .allow ∧
          ∃ state unregistered,
            listing.state.perform (.unregister account) = .ok (state, unregistered) ∧
            c' = (c.setState market listing state).setMemberships
              (c.memberships.leave account market)) := by
  simp only [leaveMarket, runOn_get_bind, runOn_liftM_bind_eq_ok, listed_eq_ok] at hleave
  obtain ⟨listing, hlisted, hleave⟩ := hleave
  refine ⟨listing, hlisted, ?_⟩
  split at hleave
  next hmember =>
    exact .inl ⟨by simpa using hmember, (runOn_pure_eq_ok.mp hleave).2⟩
  next hmember =>
    simp only [runOn_guard_eq_ok, runOn_liftM_bind_eq_ok, Verdict.demand_eq_ok, within_eq_ok,
      Bool.not_eq_true] at hleave
    obtain ⟨hdebt, verdict, hverdict, -, rfl, plan, hplan, hleave⟩ := hleave
    refine .inr ⟨by simpa using hmember, hdebt, hverdict, ?_⟩
    cases plan with
    | none =>
        simp only [pure_bind, runOn_modify_bind, runOn_pure_eq_ok] at hleave
        refine ⟨listing.state, [], perform_unregister_eq_ok.mpr ⟨_, hplan, by simp, rfl⟩, ?_⟩
        rw [setState_self hlisted]
        exact hleave.2
    | some plan =>
        simp only [runOn_bind_eq_ok, runOn_onMarket_eq_ok, runOn_modify_bind, runOn_pure_eq_ok]
          at hleave
        obtain ⟨changes, c₁, ⟨_, hsame, hchanges, rfl⟩, -, rfl⟩ := hleave
        cases hlisted.symm.trans hsame
        exact ⟨_, _, perform_unregister_eq_ok.mpr ⟨_, hplan, commitCollateral_eq .., rfl⟩, rfl⟩

theorem atomic_enterMarket : (enterMarket account market).Atomic := by
  apply reads_get.bind_atomic
  intro c
  apply (reads_liftM _).bind_atomic
  intro listing
  split
  · exact (reads_pure _).atomic
  · apply (reads_liftM _).bind_atomic
    intro plan
    cases plan with
    | none =>
        exact (reads_pure _).bind_atomic fun _ =>
          (atomic_modify _).bind_pure _
    | some plan => exact (atomic_onMarket _).bind_of_ok fun _ c' => ⟨_, _, rfl⟩

/-- Markets that were entered before a failure stay entered. -/
theorem keeps_enterMarkets {P : Controller → Prop} {markets : List MarketId}
    (henter : ∀ market, (enterMarket account market).Keeps P) :
    (enterMarkets account markets).Keeps P := by
  apply Keeps.get_bind
  intro c _
  refine (reads_liftM _).keeps.bind ?_
  intro _
  exact (Keeps.mapM henter markets).bind_pure _

theorem atomic_leaveMarket : (leaveMarket account market prices).Atomic := by
  apply reads_get.bind_atomic
  intro c
  apply (reads_liftM _).bind_atomic
  intro listing
  split
  · exact (reads_pure _).atomic
  · apply atomic_guard
    refine (reads_liftM _).bind_atomic fun verdict => (reads_liftM _).bind_atomic fun _ =>
      (reads_liftM _).bind_atomic fun plan => ?_
    cases plan with
    | none =>
        exact (reads_pure _).bind_atomic fun _ =>
          (atomic_modify _).bind_pure _
    | some plan => exact (atomic_onMarket _).bind_of_ok fun _ c' => ⟨_, _, rfl⟩

/-! ## Borrowing and repaying -/

/-- The collateral on entry is the collateral that registering brings. -/
theorem collateralOnEntry_eq_ok
    (hentry : (collateralOnEntry market account).runOn c = (.ok tokens, c')) :
    c' = c ∧ ∃ listing state registered, c.listed? market = some listing ∧
      listing.state.perform (.register account) = .ok (state, registered) ∧
      tokens = state.collateralTokens account := by
  obtain ⟨listing, hlisted, htokens, rfl⟩ := runOn_planOn_eq_ok.mp hentry
  simp only [bind_eq_ok, pure_eq_ok] at htokens
  obtain ⟨plan, hplan, rfl⟩ := htokens
  refine ⟨rfl, listing, ?_⟩
  cases plan with
  | none =>
      exact ⟨listing.state, [], hlisted, perform_register_eq_ok.mpr ⟨_, hplan, by simp, rfl⟩, rfl⟩
  | some plan =>
      refine ⟨(listing.state.settleRegistration plan).1, listing.state.collateralEvents plan,
        hlisted, ?_, ?_⟩
      · exact perform_register_eq_ok.mpr ⟨_, hplan, commitCollateral_eq .., rfl⟩
      · have hkind : (listing.state.settleRegistration plan).1.kind =
            listing.state.kind.commit (some plan) := by
          rw [settleRegistration, commitCollateral_eq]
        rw [collateralTokens_of_commit hkind]
        unfold planRegister at hplan
        cases hledger : listing.state.kind.ledger? with
        | none => simp [hledger] at hplan
        | some ledger =>
            rw [collateralTokens_of_ledger?_eq_some hledger]
            rfl

/-- A borrow does not look at registrations. -/
theorem planBorrow_of_register {m m' : Market}
    (hregister : m.perform (.register account) = .ok (m', events)) :
    m'.planBorrow borrower amount now = m.planBorrow borrower amount now := by
  obtain ⟨plan, -, rfl, -⟩ := perform_register_eq_ok.mp hregister
  rfl

/-- A member borrows; who is none enters the market first, and is judged by the
collateral that it then has. -/
theorem borrow_eq_ok
    (hborrow : (borrow borrower market amount now prices).runOn c = (.ok events, c')) :
    ∃ listing plan, c.listed? market = some listing ∧
      listing.state.planBorrow borrower amount now = .ok plan ∧
      (c.isMember borrower market = true ∧
          c.borrowVerdict market borrower amount none prices = .ok .allow ∧
          c' = c.setState market listing (listing.state.settleBorrow plan).1 ∨
        c.isMember borrower market = false ∧ ∃ state registered,
          listing.state.perform (.register borrower) = .ok (state, registered) ∧
          c.borrowVerdict market borrower amount (some (state.collateralTokens borrower)) prices =
            .ok .allow ∧
          c' = (c.setState market listing (state.settleBorrow plan).1).setMemberships
            (c.memberships.enter borrower market)) := by
  simp only [borrow, runOn_planOn_bind_eq_ok, runOn_get_bind] at hborrow
  obtain ⟨listing, plan, hlisted, hplan, hborrow⟩ := hborrow
  refine ⟨listing, plan, hlisted, hplan, ?_⟩
  split at hborrow
  next hmember =>
    rw [pure_bind, runOn_passGate_bind_eq_ok] at hborrow
    obtain ⟨hverdict, hborrow⟩ := hborrow
    simp only [Option.isSome_none, Bool.false_eq_true, if_false, pure_bind, runOn_bind_eq_ok,
      runOn_onMarket_eq_ok, runOn_pure_eq_ok] at hborrow
    obtain ⟨_, _, ⟨_, hsame, -, rfl⟩, -, rfl⟩ := hborrow
    cases hlisted.symm.trans hsame
    exact .inl ⟨hmember, hverdict, rfl⟩
  next hmember =>
    obtain ⟨entering, c₁, hentry, hborrow⟩ := runOn_bind_eq_ok.mp hborrow
    obtain ⟨tokens, htokens, rfl⟩ := runOn_map_eq_ok.mp hentry
    obtain ⟨rfl, _, state, registered, hsame, hregister, rfl⟩ := collateralOnEntry_eq_ok htokens
    cases hlisted.symm.trans hsame
    obtain ⟨hverdict, hborrow⟩ := runOn_passGate_bind_eq_ok.mp hborrow
    simp only [Option.isSome_some, if_true, runOn_bind_eq_ok, runOn_onMarket_eq_ok,
      runOn_pure_eq_ok] at hborrow
    obtain ⟨_, c₂, henter, _, _, ⟨after, hafter, -, rfl⟩, -, rfl⟩ := hborrow
    obtain ⟨_, hsame', hentered⟩ := enterMarket_eq_ok henter
    cases hlisted.symm.trans hsame'
    rcases hentered with ⟨hcontra, -⟩ | ⟨hno, state', registered', hregister', rfl⟩
    · exact absurd hcontra hmember
    · cases hregister.symm.trans hregister'
      cases (listed?_setState_self state hlisted).symm.trans hafter
      refine .inr ⟨hno, state, registered, hregister, hverdict, ?_⟩
      rw [← setState_setState c₁ market listing state (state.settleBorrow plan).1]
      rfl

/-- A market that an account entered is still listed. -/
theorem listed?_of_enterMarket (henter : (enterMarket account market).runOn c = (.ok events, c')) :
    ∃ listing, c'.listed? market = some listing := by
  obtain ⟨listing, hlisted, ⟨-, rfl⟩ | ⟨-, state, registered, -, rfl⟩⟩ := enterMarket_eq_ok henter
  · exact ⟨listing, hlisted⟩
  · exact ⟨{ listing with state }, listed?_setState_self state hlisted⟩

/-- The last step of a borrow cannot fail on what the entry before it wrote. -/
theorem atomic_borrow : (borrow borrower market amount now prices).Atomic := by
  apply (reads_planOn _).bind_atomic
  intro plan
  apply reads_get.bind_atomic
  intro c
  have hsettle : ∀ entering : Option Amount, Atomic (do
      passGate fun c => c.borrowVerdict market borrower amount entering prices
      let entered ← if entering.isSome then enterMarket borrower market else pure []
      let events ← onMarket market fun m => m.settleBorrow plan
      return entered ++ events) := by
    intro entering
    apply (reads_passGate _).bind_atomic
    intro _
    split
    · intro c e c' hrun
      rcases runOn_bind_eq_error.mp hrun with herror | ⟨entered, c₁, hentered, hlast⟩
      · exact atomic_enterMarket _ _ _ herror
      · -- the market that was entered is listed, so settling cannot fail
        obtain ⟨listing, hlisted⟩ := listed?_of_enterMarket hentered
        simp only [runOn_bind, runOn_onMarket_of_listed hlisted, runOn_pure, Prod.mk.injEq,
          reduceCtorEq, false_and] at hlast
    · exact (reads_pure _).bind_atomic fun _ =>
        (atomic_onMarket _).bind_pure _
  split
  · exact (reads_pure none).bind_atomic hsettle
  · exact (reads_planOn _).map.bind_atomic hsettle

theorem repay_eq_ok (hrepay : (repay payer borrower market amount now).runOn c = (.ok events, c')) :
    ∃ listing plan, c.listed? market = some listing ∧
      listing.state.planRepay payer borrower amount now = .ok plan ∧
      c' = c.setState market listing (listing.state.settleRepay plan).1 := by
  simp only [repay, runOn_passGate_bind_eq_ok, runOn_planOn_bind_eq_ok, runOn_onMarket_eq_ok]
    at hrepay
  obtain ⟨-, listing, plan, hlisted, hplan, _, hsame, -, rfl⟩ := hrepay
  cases hlisted.symm.trans hsame
  exact ⟨listing, plan, hlisted, hplan, rfl⟩

theorem atomic_repay : (repay payer borrower market amount now).Atomic :=
  (reads_passGate _).bind_atomic fun _ => (reads_planOn _).bind_atomic fun _ => atomic_onMarket _

/-! ## Flashloans and reserves -/

theorem flashloan_eq_ok
    (hflashloan : (flashloan receiver market amount repaid now).runOn c = (.ok events, c')) :
    ∃ listing plan, c.listed? market = some listing ∧
      listing.state.planFlashloan receiver amount repaid now = .ok plan ∧
      c.flashloanVerdict market amount = .allow ∧
      c' = c.setState market listing (listing.state.settleFlashloan plan).1 := by
  simp only [flashloan, runOn_passGate_bind_eq_ok, runOn_planOn_bind_eq_ok,
    runOn_onMarket_eq_ok, Except.ok.injEq] at hflashloan
  obtain ⟨hverdict, listing, plan, hlisted, hplan, _, hsame, -, rfl⟩ := hflashloan
  cases hlisted.symm.trans hsame
  exact ⟨listing, plan, hlisted, hplan, hverdict, rfl⟩

theorem atomic_flashloan : (flashloan receiver market amount repaid now).Atomic :=
  (reads_passGate _).bind_atomic fun _ => (reads_planOn _).bind_atomic fun _ => atomic_onMarket _

/-! ## Dealings as calls of markets -/

theorem performs_of_mint (hmint : (mint minter market amount now).runOn c = (.ok events, c')) :
    c.Performs market (.mint minter amount (c.isMember minter market) now) c' := by
  obtain ⟨listing, plan, hlisted, hplan, -, hc'⟩ := mint_eq_ok hmint
  refine ⟨listing, _, (listing.state.settleMint plan).2, hlisted, ?_, hc'⟩
  exact perform_mint_eq_ok.mpr ⟨plan, hplan, rfl, rfl⟩

theorem performs_of_redeem
    (hredeem : (redeem redeemer market tokens now prices).runOn c = (.ok events, c')) :
    c.Performs market (.redeem redeemer tokens now) c' := by
  obtain ⟨listing, plan, hlisted, hplan, -, hc'⟩ := redeem_eq_ok hredeem
  refine ⟨listing, _, (listing.state.settleRedeem plan).2, hlisted, ?_, hc'⟩
  exact perform_redeem_eq_ok.mpr ⟨plan, hplan, rfl, rfl⟩

theorem performs_of_redeemUnderlying
    (hredeem : (redeemUnderlying redeemer market amount now prices).runOn c = (.ok events, c')) :
    c.Performs market (.redeemUnderlying redeemer amount now) c' := by
  obtain ⟨listing, plan, hlisted, hplan, -, hc'⟩ := redeemUnderlying_eq_ok hredeem
  refine ⟨listing, _, (listing.state.settleRedeem plan).2, hlisted, ?_, hc'⟩
  exact perform_redeemUnderlying_eq_ok.mpr ⟨plan, hplan, rfl, rfl⟩

theorem performs_of_transfer
    (htransfer : (transfer source target market tokens prices).runOn c = (.ok events, c')) :
    c.Performs market (.transfer source target tokens (c.isMember target market)) c' := by
  obtain ⟨listing, plan, hlisted, hplan, -, hc'⟩ := transfer_eq_ok htransfer
  refine ⟨listing, _, (listing.state.settleMove plan).2, hlisted, ?_, hc'⟩
  exact perform_transfer_eq_ok.mpr ⟨plan, hplan, rfl, rfl⟩

theorem performs_of_repay
    (hrepay : (repay payer borrower market amount now).runOn c = (.ok events, c')) :
    c.Performs market (.repay payer borrower amount now) c' := by
  obtain ⟨listing, plan, hlisted, hplan, hc'⟩ := repay_eq_ok hrepay
  refine ⟨listing, _, (listing.state.settleRepay plan).2, hlisted, ?_, hc'⟩
  exact perform_repay_eq_ok.mpr ⟨plan, hplan, rfl, rfl⟩

theorem performs_of_flashloan
    (hflashloan : (flashloan receiver market amount repaid now).runOn c = (.ok events, c')) :
    c.Performs market (.flashloan receiver amount repaid now) c' := by
  obtain ⟨listing, plan, hlisted, hplan, -, hc'⟩ := flashloan_eq_ok hflashloan
  refine ⟨listing, _, (listing.state.settleFlashloan plan).2, hlisted, ?_, hc'⟩
  exact perform_flashloan_eq_ok.mpr ⟨plan, hplan, rfl, rfl⟩

/-- Entering a market registers, unless the account is a member. -/
theorem performs_of_enterMarket (henter : (enterMarket account market).runOn c = (.ok events, c')) :
    c' = c ∨ c.isMember account market = false ∧ ∃ c₁,
      c.Performs market (.register account) c₁ ∧
      c' = c₁.setMemberships (c.memberships.enter account market) := by
  obtain ⟨listing, hlisted, ⟨-, hc'⟩ | ⟨hmember, state, registered, hregister, hc'⟩⟩ :=
    enterMarket_eq_ok henter
  · exact .inl hc'
  · exact .inr ⟨hmember, _, ⟨listing, state, registered, hlisted, hregister, rfl⟩, hc'⟩

/-- Leaving a market unregisters, unless the account is no member. -/
theorem performs_of_leaveMarket
    (hleave : (leaveMarket account market prices).runOn c = (.ok events, c')) :
    c' = c ∨ ∃ c₁, c.Performs market (.unregister account) c₁ ∧
      c' = c₁.setMemberships (c.memberships.leave account market) := by
  obtain ⟨listing, hlisted, ⟨-, hc'⟩ | ⟨-, -, -, state, unregistered, hunregister, hc'⟩⟩ :=
    leaveMarket_eq_ok hleave
  · exact .inl hc'
  · exact .inr ⟨_, ⟨listing, state, unregistered, hlisted, hunregister, rfl⟩, hc'⟩

/-- A borrow is a call of the market, where the borrower may have registered
and become a member before. -/
theorem performs_of_borrow
    (hborrow : (borrow borrower market amount now prices).runOn c = (.ok events, c')) :
    c.Performs market (.borrow borrower amount now) c' ∨
      c.isMember borrower market = false ∧ ∃ c₁ c₂,
        c.Performs market (.register borrower) c₁ ∧
        c₁.Performs market (.borrow borrower amount now) c₂ ∧
        c' = c₂.setMemberships (c.memberships.enter borrower market) := by
  obtain ⟨listing, plan, hlisted, hplan, hborrowed⟩ := borrow_eq_ok hborrow
  rcases hborrowed with ⟨-, -, hc'⟩ | ⟨hmember, state, registered, hregister, -, hc'⟩
  · refine .inl ⟨listing, _, (listing.state.settleBorrow plan).2, hlisted, ?_, hc'⟩
    exact perform_borrow_eq_ok.mpr ⟨plan, hplan, rfl, rfl⟩
  · refine .inr ⟨hmember, _, _, ⟨listing, state, registered, hlisted, hregister, rfl⟩,
      ⟨{ listing with state }, (state.settleBorrow plan).1, (state.settleBorrow plan).2, ?_, ?_,
        rfl⟩, ?_⟩
    · exact listed?_setState_self state hlisted
    · rw [← planBorrow_of_register hregister] at hplan
      exact perform_borrow_eq_ok.mpr ⟨plan, hplan, rfl, rfl⟩
    · rw [setState_setState]
      exact hc'

end Operation

end MoneyMarket
