import MoneyMarket.Proofs.Controller.Soundness
import MoneyMarket.Proofs.Market.Availability

/-! # All or nothing

A call that fails leaves the controller as it was. Most operations cannot fail
once they have written, whatever the controller. An operation on several
markets finds all of them listed before it writes, and no later step fails
because listed markets stay listed and accounts can always register what they
hold in a reachable market.
-/

namespace MoneyMarket

open Controller

variable {α : Type} {c c' : Controller} {e : ControllerError} {market : MarketId}
  {markets : List MarketId} {prices : Prices} {account caller : AccountId}
  {guardian : Option AccountId} {amount : Amount} {paused : Bool}

/-! ## Listed markets -/

/-- All of some markets are listed. -/
def Controller.Lists (c : Controller) (markets : List MarketId) : Prop :=
  ∀ market ∈ markets, ∃ listing, c.listed? market = some listing

namespace Controller

theorem discard_listed_eq_ok {u : PUnit} :
    discard (c.listed market) = .ok u ↔ ∃ listing, c.listed? market = some listing := by
  unfold listed
  cases c.listed? market with
  | none =>
      constructor
      · intro h
        cases h
      · rintro ⟨listing, h⟩
        cases h
  | some listing => exact ⟨fun _ => ⟨listing, rfl⟩, fun _ => rfl⟩

theorem lists_of_requireListed {u : PUnit} (hlisted : c.requireListed markets = .ok u) :
    c.Lists markets := by
  induction markets with
  | nil =>
      intro market hmarket
      cases hmarket
  | cons first rest ih =>
      simp only [requireListed, List.forM_eq_forM, List.forM_cons, bind_eq_ok,
        discard_listed_eq_ok] at hlisted
      obtain ⟨-, hfirst, hrest⟩ := hlisted
      intro market hmarket
      rcases List.mem_cons.mp hmarket with rfl | hmarket
      · exact hfirst
      · exact ih hrest market hmarket

/-- Listed markets stay listed where the policy of one changes in something else. -/
theorem Lists.setListing {listing : Listing} (hc : c.Lists markets)
    (hlisted : listing.policy.isListed = true) : (c.setListing market listing).Lists markets := by
  intro other hother
  obtain ⟨found, hfound⟩ := hc other hother
  rw [listed?_eq_some] at hfound
  by_cases heq : market = other
  · refine ⟨listing, listed?_eq_some.mpr ⟨?_, hlisted⟩⟩
    exact (Registry.get?_insert ..).trans (if_pos heq)
  · refine ⟨found, listed?_eq_some.mpr ⟨?_, hfound.2⟩⟩
    exact (Registry.get?_insert ..).trans ((if_neg heq).trans hfound.1)

theorem Lists.of_markets_eq (hc : c.Lists markets) (hmarkets : c'.markets = c.markets) :
    c'.Lists markets := by
  unfold Lists listed?
  rw [hmarkets]
  exact hc

end Controller

namespace Operation

/-! ## Several markets -/

variable {P : Controller → Prop}

/-- What succeeds on listed markets changes nothing where one of them is not. -/
theorem Succeeds.eq_of_unlisted {op : Operation α} (hop : op.Succeeds P)
    (hP : c.Lists markets → P c)
    (hrun : (get >>= fun c => liftM (c.requireListed markets) >>= fun _ => op).runOn c =
      (.error e, c')) : c' = c := by
  rw [runOn_get_bind] at hrun
  rcases runOn_bind_eq_error.mp hrun with hcheck | ⟨u, c₁, hcheck, herror⟩
  · exact (reads_liftM _).eq hcheck
  · cases (reads_liftM _).eq hcheck
    rw [runOn_liftM, Prod.mk.injEq] at hcheck
    obtain ⟨a, c₂, hok, -⟩ := hop c (hP (lists_of_requireListed hcheck.1))
    cases hok.symm.trans herror

theorem lists_of_enterMarket {events : List Event} (hc : c.Lists markets)
    (henter : (enterMarket account market).runOn c = (.ok events, c')) : c'.Lists markets := by
  obtain ⟨listing, hlisted, ⟨-, rfl⟩ | ⟨-, state, registered, -, rfl⟩⟩ := enterMarket_eq_ok henter
  · exact hc
  · have hset : (c.setState market listing state).Lists markets :=
      Lists.setListing hc (listed?_eq_some.mp hlisted).2
    exact hset.of_markets_eq rfl

/-- Entering a listed market succeeds, because registering what an account
holds never fails. -/
theorem succeeds_enterMarket (hmarket : market ∈ markets) :
    (enterMarket account market).Succeeds fun c => c.Sound ∧ c.Lists markets := by
  rintro c ⟨hsound, hlists⟩
  obtain ⟨listing, hlisted⟩ := hlists market hmarket
  obtain ⟨plan, hplan⟩ :=
    (hsound.reachable_of_listed hlisted).orderly.exists_planRegister account
  have hok : ∃ events c', (enterMarket account market).runOn c = (.ok events, c') := by
    simp only [enterMarket, runOn_get_bind, runOn_liftM_bind_eq_ok, listed_eq_ok]
    simp only [hlisted, Option.some.injEq, exists_eq_left']
    split
    · exact ⟨_, _, rfl⟩
    · simp only [hplan, runOn_liftM_bind_eq_ok, within_eq_ok, Except.ok.injEq, exists_eq_left']
      cases plan with
      | none => exact ⟨_, _, rfl⟩
      | some plan =>
          simp only [runOn_bind, runOn_onMarket_of_listed hlisted]
          exact ⟨_, _, rfl⟩
  obtain ⟨events, c', hrun⟩ := hok
  have hkept : ((enterMarket account market).runOn c).2.Sound :=
    (Call.preserves_sound (.deal (.enterMarket account market))).keeps_enterMarket c hsound
  rw [hrun] at hkept
  exact ⟨events, c', hrun, hkept, lists_of_enterMarket hlists hrun⟩

/-- Entering markets fails before the first one is entered, or not at all. -/
theorem enterMarkets_eq_error (hc : c.Sound)
    (hrun : (enterMarkets account markets).runOn c = (.error e, c')) : c' = c := by
  have henter : (do
      let events ← markets.mapM (enterMarket account)
      return events.flatten).Succeeds fun c => c.Sound ∧ c.Lists markets :=
    (Succeeds.mapM fun _ => succeeds_enterMarket).bind fun events => succeeds_pure events.flatten
  exact henter.eq_of_unlisted (fun hlists => ⟨hc, hlists⟩) hrun

/-- A policy that stays listed can be changed in any listed market. -/
theorem succeeds_onPolicy {change : MarketPolicy → MarketPolicy}
    (hchange : ∀ policy, (change policy).isListed = policy.isListed) (hmarket : market ∈ markets) :
    (onPolicy market change).Succeeds fun c => c.Lists markets := by
  intro c hlists
  obtain ⟨listing, hlisted⟩ := hlists market hmarket
  refine ⟨(), _, runOn_onPolicy_eq_ok.mpr ⟨listing, hlisted, rfl⟩, hlists.setListing ?_⟩
  rw [hchange]
  exact (listed?_eq_some.mp hlisted).2

/-- Caps are set in all of the markets or in none. -/
theorem atomic_setCaps {caps : List (MarketId × Amount)}
    {change : Amount → MarketPolicy → MarketPolicy} {event : MarketId → Amount → Event}
    (hchange : ∀ cap policy, (change cap policy).isListed = policy.isListed) :
    (setCaps caps change event).Atomic := by
  intro c e c' hrun
  have hset : (caps.mapM fun entry => do
      onPolicy entry.1 (change entry.2)
      return event entry.1 entry.2 : Operation (List Event)).Succeeds
        fun c => c.Lists (caps.map Prod.fst) := by
    apply Succeeds.mapM
    intro entry hentry
    exact (succeeds_onPolicy (hchange entry.2) (List.mem_map_of_mem hentry)).bind fun _ =>
      succeeds_pure _
  exact hset.eq_of_unlisted id hrun

theorem atomic_setSupplyCaps {caps : List (MarketId × Amount)} :
    (setSupplyCaps caller caps).Atomic :=
  (reads_requireAdminOr _ caller _).bind_atomic fun _ => atomic_setCaps fun _ _ => rfl

theorem atomic_setBorrowCaps {caps : List (MarketId × Amount)} :
    (setBorrowCaps caller caps).Atomic :=
  (reads_requireAdminOr _ caller _).bind_atomic fun _ => atomic_setCaps fun _ _ => rfl

end Operation

open Operation

/-! ## Calls -/

/-- Only entering several markets depends on what holds of the controller. -/
theorem Dealing.eq_of_error {dealing : Dealing} (hc : c.Sound)
    (hrun : dealing.operation.runOn c = (.error e, c')) : c' = c := by
  cases dealing with
  | mint => exact atomic_mint.silently _ _ _ hrun
  | redeem => exact atomic_redeem.silently _ _ _ hrun
  | redeemUnderlying => exact atomic_redeemUnderlying.silently _ _ _ hrun
  | borrow => exact atomic_borrow.silently _ _ _ hrun
  | repay => exact atomic_repay.silently _ _ _ hrun
  | transfer => exact atomic_transfer.silently _ _ _ hrun
  | flashloan => exact atomic_flashloan.silently _ _ _ hrun
  | enterMarket => exact atomic_enterMarket.silently _ _ _ hrun
  | enterMarkets account markets =>
      simp only [Dealing.operation, Operation.silently, map_eq_pure_bind, runOn_bind_eq_error]
        at hrun
      rcases hrun with herror | ⟨_, _, _, hpure⟩
      · exact enterMarkets_eq_error hc herror
      · cases hpure
  | leaveMarket => exact atomic_leaveMarket.silently _ _ _ hrun
  | liquidate => exact atomic_liquidate.silently _ _ _ hrun
  | addReserves => exact (atomic_tryOnMarket _).silently _ _ _ hrun

theorem Controller.Call.eq_of_error {call : Call} (hc : c.Sound)
    (hcall : ∀ now, call ≠ .accrueAll now)
    (hrun : call.operation.runOn c = (.error e, c')) : c' = c := by
  cases call with
  | deal dealing => exact dealing.eq_of_error hc hrun
  | accrue market now => exact (atomic_tryOnMarket _).silently _ _ _ hrun
  | accrueAll now => exact absurd rfl (hcall now)
  | listMarket => exact atomic_listMarket.silently _ _ _ hrun
  | delistMarket => exact atomic_delistMarket.silently _ _ _ hrun
  | setCollateralFactor => exact atomic_setCollateralFactor.silently _ _ _ hrun
  | setCreditLimit => exact atomic_setCreditLimit.silently _ _ _ hrun
  | setCloseFactor => exact atomic_setCloseFactor.silently _ _ _ hrun
  | setLiquidationIncentive => exact atomic_setLiquidationIncentive.silently _ _ _ hrun
  | setSupplyCaps => exact atomic_setSupplyCaps.silently _ _ _ hrun
  | setBorrowCaps => exact atomic_setBorrowCaps.silently _ _ _ hrun
  | setMintPaused => exact atomic_pauseOnMarket.silently _ _ _ hrun
  | setBorrowPaused => exact atomic_pauseOnMarket.silently _ _ _ hrun
  | setFlashloanPaused => exact atomic_pauseOnMarket.silently _ _ _ hrun
  | setTransferPaused => exact atomic_setTransferPaused.silently _ _ _ hrun
  | setSeizePaused => exact atomic_setSeizePaused.silently _ _ _ hrun
  | setAdmin => exact atomic_setAdmin.silently _ _ _ hrun
  | setPauseGuardian => exact atomic_setPauseGuardian.silently _ _ _ hrun
  | setSupplyCapGuardian => exact atomic_setSupplyCapGuardian.silently _ _ _ hrun
  | setBorrowCapGuardian => exact atomic_setBorrowCapGuardian.silently _ _ _ hrun
  | setReserveFactor => exact (atomic_tryOnMarket _).administered.silently _ _ _ hrun
  | setCollateralCap => exact (atomic_tryOnMarket _).administered.silently _ _ _ hrun
  | setInterestRateModel => exact (atomic_tryOnMarket _).administered.silently _ _ _ hrun
  | reduceReserves => exact (atomic_tryOnMarket _).administered.silently _ _ _ hrun

/-- A call of a reachable controller that fails changes nothing, unless it
brings all markets up to a time; listing any market at all that fails changes
nothing either. -/
theorem Controller.Reachable.all_or_nothing (hc : c.Reachable) :
    (∀ call : Call, (∀ now, call ≠ .accrueAll now) → ∀ e c',
      call.operation.runOn c = (.error e, c') → c' = c) ∧
    ∀ caller m e c', (listMarket caller m).runOn c = (.error e, c') → c' = c := by
  constructor
  · intro call hcall e c' hrun
    exact call.eq_of_error hc.sound hcall hrun
  · intro caller m e c' hrun
    exact atomic_listMarket _ _ _ hrun

/-- The first two of the markets could be entered, and none is. -/
theorem Controller.sample_all_or_nothing :
    sample.Reachable ∧
      (Call.deal (.enterMarkets ⟨"carol"⟩ [⟨"jUSD"⟩, ⟨"jUSD"⟩, ⟨"jEUR"⟩])).operation.runOn sample =
        (.error (.marketNotListed ⟨"jEUR"⟩), sample) := by
  have herror : ((Call.deal (.enterMarkets ⟨"carol"⟩
      [⟨"jUSD"⟩, ⟨"jUSD"⟩, ⟨"jEUR"⟩])).operation.runOn sample).1 =
      .error (.marketNotListed ⟨"jEUR"⟩) := by
    decide +kernel
  refine ⟨sample_reachable, ?_⟩
  cases hrun : (Call.deal (.enterMarkets ⟨"carol"⟩
      [⟨"jUSD"⟩, ⟨"jUSD"⟩, ⟨"jEUR"⟩])).operation.runOn sample with
  | mk result c' =>
      rw [hrun] at herror
      cases herror
      rw [sample_reachable.all_or_nothing.1 _ (fun _ h => by cases h) _ _ hrun]

end MoneyMarket
