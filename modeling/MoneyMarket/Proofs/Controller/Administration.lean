import MoneyMarket.Controller.Administration
import MoneyMarket.Proofs.Controller.Liquidation

/-! # What administration does

Rights are checked first and change nothing. Each operation then either fails
and changes nothing, or does one thing: it sets the record of a market, calls
a market, or sets something besides markets and memberships.
-/

namespace MoneyMarket.Operation

open Controller

variable {α : Type} {c c' : Controller} {market : MarketId} {now : UInt64} {prices : Prices}
  {account caller : AccountId} {guardian : Option AccountId} {amount : Amount} {paused : Bool}
  {event : Event} {u : Unit}

/-! ## Rights -/

theorem reads_requireAdmin (caller : AccountId) (privilege : Privilege) :
    (requireAdmin caller privilege).Reads := by
  apply reads_get.bind
  intro c
  split
  · exact reads_throw _
  · exact reads_pure _

theorem reads_requireAdminOr (guardian : Controller → Option AccountId) (caller : AccountId)
    (privilege : Privilege) : (requireAdminOr guardian caller privilege).Reads := by
  apply reads_get.bind
  intro c
  split
  · exact reads_requireAdmin caller privilege
  · exact reads_pure _

theorem reads_requirePauseRights (caller : AccountId) (paused : Bool) (privilege : Privilege) :
    (requirePauseRights caller paused privilege).Reads := by
  unfold requirePauseRights
  split
  · exact reads_requireAdminOr _ caller privilege
  · exact reads_requireAdmin caller privilege

theorem runOn_requireAdmin_bind {privilege : Privilege} {f : Unit → Operation α} :
    (requireAdmin caller privilege >>= f).runOn c =
      if caller = c.admin then (f ()).runOn c
      else (.error (.unauthorized caller privilege), c) := by
  simp only [requireAdmin, bind_assoc, runOn_get_bind]
  by_cases hadmin : caller = c.admin <;> simp [hadmin]

theorem runOn_requireAdminOr_bind {guardian : Controller → Option AccountId}
    {privilege : Privilege} {f : Unit → Operation α} :
    (requireAdminOr guardian caller privilege >>= f).runOn c =
      if guardian c = some caller ∨ caller = c.admin then (f ()).runOn c
      else (.error (.unauthorized caller privilege), c) := by
  simp only [requireAdminOr, bind_assoc, runOn_get_bind]
  by_cases hguardian : guardian c = some caller
  · simp [hguardian]
  · simp only [hguardian, ne_eq, not_false_eq_true, if_true, false_or]
    exact runOn_requireAdmin_bind

theorem runOn_requireAdmin_bind_eq_ok {privilege : Privilege} {f : Unit → Operation α} {a : α} :
    (requireAdmin caller privilege >>= f).runOn c = (.ok a, c') ↔
      caller = c.admin ∧ (f ()).runOn c = (.ok a, c') := by
  rw [runOn_requireAdmin_bind]
  split <;> simp [*]

/-- Pausing takes the guardian or the admin, and resuming the admin. -/
theorem runOn_requirePauseRights_bind_eq_ok {privilege : Privilege} {f : Unit → Operation α}
    {a : α} :
    (requirePauseRights caller paused privilege >>= f).runOn c = (.ok a, c') ↔
      (paused = true ∧ c.pauseGuardian = some caller ∨ caller = c.admin) ∧
        (f ()).runOn c = (.ok a, c') := by
  cases paused with
  | true =>
      rw [requirePauseRights, if_pos rfl, runOn_requireAdminOr_bind]
      split <;> simp_all
  | false =>
      rw [requirePauseRights, if_neg Bool.false_ne_true, runOn_requireAdmin_bind_eq_ok]
      simp

/-! ## Failures -/

theorem Atomic.administered {privilege : Privilege} {op : Operation α} (hop : op.Atomic) :
    (requireAdmin caller privilege >>= fun _ => op).Atomic :=
  (reads_requireAdmin caller privilege).bind_atomic fun _ => hop

theorem atomic_listMarket {m : Market} : (listMarket caller m).Atomic := by
  apply Atomic.administered
  apply reads_get.bind_atomic
  intro c
  apply atomic_guard
  exact (atomic_set _).bind_pure _

theorem atomic_delistMarket : (delistMarket caller market).Atomic := by
  apply Atomic.administered
  apply reads_get.bind_atomic
  intro c
  apply (reads_liftM _).bind_atomic
  intro listing
  apply atomic_guard
  exact (atomic_onPolicy _).bind_of_ok fun _ c => ⟨_, _, rfl⟩

theorem atomic_setCollateralFactor {collateralFactor : Wad} :
    (setCollateralFactor caller market collateralFactor prices).Atomic := by
  apply Atomic.administered
  apply reads_get.bind_atomic
  intro c
  apply (reads_liftM _).bind_atomic
  intro listing
  apply atomic_guard
  apply atomic_guard
  exact (atomic_onPolicy _).bind_pure _

theorem atomic_setCreditLimit : (setCreditLimit caller account amount).Atomic :=
  ((atomic_modify _).bind_pure _).administered

theorem atomic_setCloseFactor {closeFactor : Wad} :
    (setCloseFactor caller closeFactor).Atomic := by
  apply Atomic.administered
  apply (reads_liftM_arithmetic _).bind_atomic
  intro min
  apply (reads_liftM_arithmetic _).bind_atomic
  intro max
  apply atomic_guard
  exact reads_get.bind_atomic fun _ => (atomic_set _).bind_pure _

theorem atomic_setLiquidationIncentive {liquidationIncentive : Wad} :
    (setLiquidationIncentive caller liquidationIncentive).Atomic := by
  apply Atomic.administered
  apply atomic_guard
  exact reads_get.bind_atomic fun _ => (atomic_set _).bind_pure _

theorem atomic_pauseOnMarket {action : Action} {change : MarketPolicy → MarketPolicy} :
    (pauseOnMarket caller market action paused change).Atomic :=
  (reads_requirePauseRights caller paused _).bind_atomic fun _ => (atomic_onPolicy _).bind_pure _

theorem atomic_setTransferPaused : (setTransferPaused caller paused).Atomic :=
  (reads_requirePauseRights caller paused _).bind_atomic fun _ => (atomic_modify _).bind_pure _

theorem atomic_setSeizePaused : (setSeizePaused caller paused).Atomic :=
  (reads_requirePauseRights caller paused _).bind_atomic fun _ => (atomic_modify _).bind_pure _

theorem atomic_setAdmin : (setAdmin caller account).Atomic :=
  Atomic.administered (reads_get.bind_atomic fun _ => (atomic_set _).bind_pure _)

theorem atomic_setPauseGuardian : (setPauseGuardian caller guardian).Atomic :=
  ((atomic_modify _).bind_pure _).administered

theorem atomic_setSupplyCapGuardian : (setSupplyCapGuardian caller guardian).Atomic :=
  ((atomic_modify _).bind_pure _).administered

theorem atomic_setBorrowCapGuardian : (setBorrowCapGuardian caller guardian).Atomic :=
  ((atomic_modify _).bind_pure _).administered

/-! ## Successes -/

theorem listMarket_eq_ok {m : Market}
    (hrun : (listMarket caller m).runOn c = (.ok event, c')) :
    caller = c.admin ∧ c.isListed m.id = false ∧
      c' = c.setListing m.id ⟨m, { isListed := true }⟩ := by
  simp only [listMarket, runOn_requireAdmin_bind_eq_ok, runOn_get_bind, runOn_guard_eq_ok,
    runOn_set_bind, runOn_pure_eq_ok, Bool.not_eq_true] at hrun
  obtain ⟨hcaller, hunlisted, -, rfl⟩ := hrun
  exact ⟨hcaller, hunlisted, rfl⟩

theorem delistMarket_eq_ok (hrun : (delistMarket caller market).runOn c = (.ok event, c')) :
    caller = c.admin ∧ ∃ listing, c.listed? market = some listing ∧
      listing.state.totalSupply = 0 ∧
      c' = (c.setListing market
        { listing with policy := { listing.policy with isListed := false } }).setMemberships
          (c.memberships.close market) := by
  simp only [delistMarket, runOn_requireAdmin_bind_eq_ok, runOn_get_bind, runOn_liftM_bind_eq_ok,
    listed_eq_ok, runOn_guard_eq_ok, ne_eq, not_not, runOn_bind_eq_ok (x := onPolicy _ _),
    runOn_onPolicy_eq_ok, runOn_modify_bind, runOn_pure_eq_ok] at hrun
  obtain ⟨hcaller, listing, hlisted, hsupply, -, -, ⟨_, hsame, rfl⟩, -, rfl⟩ := hrun
  cases hlisted.symm.trans hsame
  exact ⟨hcaller, listing, hlisted, hsupply, rfl⟩

theorem setCollateralFactor_eq_ok {collateralFactor : Wad}
    (hrun : (setCollateralFactor caller market collateralFactor prices).runOn c =
      (.ok event, c')) :
    caller = c.admin ∧ ∃ listing, c.listed? market = some listing ∧
      c' = c.setListing market
        { listing with policy := { listing.policy with collateralFactor } } := by
  simp only [setCollateralFactor, runOn_requireAdmin_bind_eq_ok, runOn_get_bind,
    runOn_liftM_bind_eq_ok, runOn_guard_eq_ok, runOn_bind_eq_ok (x := onPolicy _ _),
    runOn_onPolicy_eq_ok, runOn_pure_eq_ok] at hrun
  obtain ⟨hcaller, -, -, -, -, -, -, ⟨listing, hlisted, rfl⟩, -, rfl⟩ := hrun
  exact ⟨hcaller, listing, hlisted, rfl⟩

theorem pauseOnMarket_eq_ok {action : Action} {change : MarketPolicy → MarketPolicy}
    (hrun : (pauseOnMarket caller market action paused change).runOn c = (.ok event, c')) :
    (paused = true ∧ c.pauseGuardian = some caller ∨ caller = c.admin) ∧
      ∃ listing, c.listed? market = some listing ∧
        c' = c.setListing market { listing with policy := change listing.policy } := by
  simp only [pauseOnMarket, runOn_requirePauseRights_bind_eq_ok,
    runOn_bind_eq_ok (x := onPolicy _ _), runOn_onPolicy_eq_ok, runOn_pure_eq_ok] at hrun
  obtain ⟨hright, -, -, ⟨listing, hlisted, rfl⟩, -, rfl⟩ := hrun
  exact ⟨hright, listing, hlisted, rfl⟩

/-- The admin changes something besides markets and memberships. -/
structure SetByAdmin (caller : AccountId) (c c' : Controller) : Prop where
  caller : caller = c.admin
  markets : c'.markets = c.markets
  memberships : c'.memberships = c.memberships

theorem setByAdmin_of_modify {privilege : Privilege} {f : Controller → Controller} {told : Event}
    (hrun : (requireAdmin caller privilege >>= fun _ => modify f >>= fun _ => pure told).runOn c =
      (.ok event, c'))
    (hmarkets : (f c).markets = c.markets) (hmemberships : (f c).memberships = c.memberships) :
    SetByAdmin caller c c' := by
  simp only [runOn_requireAdmin_bind_eq_ok, runOn_modify_bind, runOn_pure_eq_ok] at hrun
  obtain ⟨hcaller, -, rfl⟩ := hrun
  exact ⟨hcaller, hmarkets, hmemberships⟩

theorem setCreditLimit_eq_ok
    (hrun : (setCreditLimit caller account amount).runOn c = (.ok event, c')) :
    SetByAdmin caller c c' :=
  setByAdmin_of_modify hrun rfl rfl

theorem setCloseFactor_eq_ok {closeFactor : Wad}
    (hrun : (setCloseFactor caller closeFactor).runOn c = (.ok event, c')) :
    SetByAdmin caller c c' := by
  simp only [setCloseFactor, runOn_requireAdmin_bind_eq_ok, runOn_bind_eq_ok (x := liftM _),
    runOn_liftM_arithmetic, runOn_guard_eq_ok, runOn_get_bind, runOn_set_bind, runOn_pure_eq_ok,
    Prod.mk.injEq] at hrun
  obtain ⟨hcaller, -, _, ⟨-, rfl⟩, -, _, ⟨-, rfl⟩, -, -, rfl⟩ := hrun
  exact ⟨hcaller, rfl, rfl⟩

theorem setLiquidationIncentive_eq_ok {liquidationIncentive : Wad}
    (hrun : (setLiquidationIncentive caller liquidationIncentive).runOn c = (.ok event, c')) :
    SetByAdmin caller c c' := by
  simp only [setLiquidationIncentive, runOn_requireAdmin_bind_eq_ok, runOn_guard_eq_ok,
    runOn_get_bind, runOn_set_bind, runOn_pure_eq_ok] at hrun
  obtain ⟨hcaller, -, -, rfl⟩ := hrun
  exact ⟨hcaller, rfl, rfl⟩

theorem setAdmin_eq_ok (hrun : (setAdmin caller account).runOn c = (.ok event, c')) :
    SetByAdmin caller c c' := by
  simp only [setAdmin, runOn_requireAdmin_bind_eq_ok, runOn_get_bind, runOn_set_bind,
    runOn_pure_eq_ok] at hrun
  obtain ⟨hcaller, -, rfl⟩ := hrun
  exact ⟨hcaller, rfl, rfl⟩

theorem setPauseGuardian_eq_ok
    (hrun : (setPauseGuardian caller guardian).runOn c = (.ok event, c')) :
    SetByAdmin caller c c' :=
  setByAdmin_of_modify hrun rfl rfl

theorem setSupplyCapGuardian_eq_ok
    (hrun : (setSupplyCapGuardian caller guardian).runOn c = (.ok event, c')) :
    SetByAdmin caller c c' :=
  setByAdmin_of_modify hrun rfl rfl

theorem setBorrowCapGuardian_eq_ok
    (hrun : (setBorrowCapGuardian caller guardian).runOn c = (.ok event, c')) :
    SetByAdmin caller c c' :=
  setByAdmin_of_modify hrun rfl rfl

theorem setTransferPaused_eq_ok
    (hrun : (setTransferPaused caller paused).runOn c = (.ok event, c')) :
    (paused = true ∧ c.pauseGuardian = some caller ∨ caller = c.admin) ∧
      c' = { c with transferPaused := paused } := by
  simp only [setTransferPaused, runOn_requirePauseRights_bind_eq_ok, runOn_modify_bind,
    runOn_pure_eq_ok] at hrun
  exact ⟨hrun.1, hrun.2.2⟩

theorem setSeizePaused_eq_ok (hrun : (setSeizePaused caller paused).runOn c = (.ok event, c')) :
    (paused = true ∧ c.pauseGuardian = some caller ∨ caller = c.admin) ∧
      c' = { c with seizePaused := paused } := by
  simp only [setSeizePaused, runOn_requirePauseRights_bind_eq_ok, runOn_modify_bind,
    runOn_pure_eq_ok] at hrun
  exact ⟨hrun.1, hrun.2.2⟩

/-! ## Calls of markets -/

theorem performs_of_tryOnMarket {change : Market → Except MarketError (Market × α)} {a : α}
    {dealt : Market.Call} (hrun : (tryOnMarket market change).runOn c = (.ok a, c'))
    (hchange : ∀ m m', change m = .ok (m', a) →
      ∃ events, m.perform dealt = .ok (m', events)) :
    c.Performs market dealt c' := by
  obtain ⟨listing, state, hlisted, hstate, hc'⟩ := runOn_tryOnMarket_eq_ok.mp hrun
  obtain ⟨events, hperform⟩ := hchange _ _ hstate
  exact ⟨listing, state, events, hlisted, hperform, hc'⟩

theorem performs_of_accrue {told : Option Event}
    (hrun : (accrue market now).runOn c = (.ok told, c')) :
    c.Performs market (.accrue now) c' := by
  apply performs_of_tryOnMarket hrun
  intro m m' haccrue
  exact ⟨told.toList, Market.perform_accrue_eq_ok.mpr ⟨told, haccrue, rfl⟩⟩

theorem performs_of_addReserves
    (hrun : (addReserves account market amount now).runOn c = (.ok event, c')) :
    c.Performs market (.addReserves account amount now) c' := by
  apply performs_of_tryOnMarket hrun
  intro m m' hadd
  exact ⟨[event], Market.perform_addReserves_eq_ok.mpr ⟨event, hadd, rfl⟩⟩

section Administered

variable {privilege : Privilege} {dealt : Market.Call}

/-- The admin changes a market. -/
theorem performs_of_administered {change : Market → Except MarketError (Market × α)} {a : α}
    (hrun : (requireAdmin caller privilege >>= fun _ => tryOnMarket market change).runOn c =
      (.ok a, c'))
    (hchange : ∀ m m', change m = .ok (m', a) →
      ∃ events, m.perform dealt = .ok (m', events)) :
    caller = c.admin ∧ c.Performs market dealt c' := by
  obtain ⟨hcaller, htried⟩ := runOn_requireAdmin_bind_eq_ok.mp hrun
  exact ⟨hcaller, performs_of_tryOnMarket htried hchange⟩

/-- The admin changes a market that does not report it. -/
theorem performs_of_administered_silently {change : Market → Except MarketError Market}
    (hrun : (requireAdmin caller privilege >>= fun _ =>
      tryOnMarket market fun m => return (← change m, ())).runOn c = (.ok u, c'))
    (hchange : ∀ m m', change m = .ok m' → m.perform dealt = .ok (m', [])) :
    caller = c.admin ∧ c.Performs market dealt c' := by
  refine performs_of_administered hrun fun m m' hm => ⟨[], hchange m m' ?_⟩
  simpa only [bind_pure_comp, map_eq_ok, Prod.mk.injEq, and_true, exists_eq_right] using hm

end Administered

theorem performs_of_setReserveFactor {reserveFactor : Wad}
    (hrun : (setReserveFactor caller market reserveFactor now).runOn c = (.ok event, c')) :
    caller = c.admin ∧ c.Performs market (.setReserveFactor reserveFactor now) c' := by
  refine performs_of_administered hrun fun m m' hm => ⟨[event], ?_⟩
  exact Market.perform_setReserveFactor_eq_ok.mpr ⟨event, hm, rfl⟩

theorem performs_of_setCollateralCap
    (hrun : (setCollateralCap caller market amount).runOn c = (.ok u, c')) :
    caller = c.admin ∧ c.Performs market (.setCollateralCap amount) c' := by
  refine performs_of_administered_silently hrun fun m m' hm => ?_
  exact Market.perform_setCollateralCap_eq_ok.mpr ⟨hm, rfl⟩

theorem performs_of_setInterestRateModel {rateModel : RateModel}
    (hrun : (setInterestRateModel caller market rateModel now).runOn c = (.ok u, c')) :
    caller = c.admin ∧ c.Performs market (.setRateModel rateModel now) c' := by
  refine performs_of_administered_silently hrun fun m m' hm => ?_
  exact Market.perform_setRateModel_eq_ok.mpr ⟨hm, rfl⟩

theorem performs_of_reduceReserves
    (hrun : (reduceReserves caller market amount now).runOn c = (.ok event, c')) :
    caller = c.admin ∧ c.Performs market (.reduceReserves caller amount now) c' := by
  refine performs_of_administered hrun fun m m' hm => ⟨[event], ?_⟩
  exact Market.perform_reduceReserves_eq_ok.mpr ⟨event, hm, rfl⟩

end MoneyMarket.Operation
