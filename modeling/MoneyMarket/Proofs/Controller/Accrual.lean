import MoneyMarket.Proofs.Controller.Ceiling
import MoneyMarket.Proofs.Controller.Debts

/-! # Accruals of all markets

Bringing all listed markets up to a time goes through them in their order and
ends at the first one that fails. The markets before that one stay up to date,
and it and everything else is as it was. So a failure has changed nothing
exactly if all markets before it were up to date already. In any case another
try fails in the same way, and changes nothing.
-/

namespace MoneyMarket

open Controller Operation

variable {c c' : Controller} {e : ControllerError} {market : MarketId} {markets : List MarketId}
  {listing : Listing} {state : Market} {event : Option Event} {now : UInt64}

namespace Controller

/-! ## Listed markets -/

theorem mem_listedMarkets :
    market ∈ c.listedMarkets ↔ ∃ listing, c.listed? market = some listing := by
  simp only [listedMarkets, List.mem_map, List.mem_filter, listed?_eq_some,
    Registry.get?_eq_some_iff]
  constructor
  · rintro ⟨⟨_, listing⟩, hlisted, rfl⟩
    exact ⟨listing, hlisted⟩
  · rintro ⟨listing, hlisted⟩
    exact ⟨(market, listing), hlisted, rfl⟩

theorem pairwise_listedMarkets (c : Controller) : c.listedMarkets.Pairwise Name.Before :=
  List.Pairwise.map Prod.fst (fun _ _ hbefore => hbefore) (c.markets.ascending.filter _)

/-- A market is none of those before it. -/
theorem nodup_and_notMem_of_listedMarkets_eq {before after : List MarketId}
    (heq : c.listedMarkets = before ++ market :: after) : before.Nodup ∧ market ∉ before := by
  have hnodup : (before ++ market :: after).Nodup :=
    heq ▸ c.pairwise_listedMarkets.imp fun hbefore => hbefore.ne
  obtain ⟨hbefore, -, hdisjoint⟩ := List.nodup_append.mp hnodup
  exact ⟨hbefore, fun hmarket => hdisjoint market hmarket market List.mem_cons_self rfl⟩

/-! ## Markets that are brought up to a time -/

/-- A controller as it was, but that some listed markets are brought up to a
time. -/
structure Accrued (c : Controller) (now : UInt64) (markets : List MarketId) (c' : Controller) :
    Prop where
  rest : c' = { c with markets := c'.markets }
  accrued : ∀ market ∈ markets, ∃ listing state event, c.listed? market = some listing ∧
    listing.state.accrue now = .ok (state, event) ∧
    c'.markets.get? market = some { listing with state }
  others : ∀ market, market ∉ markets → c'.markets.get? market = c.markets.get? market

theorem accrued_nil : c.Accrued now [] c' ↔ c' = c := by
  constructor
  · intro haccrued
    have hmarkets : c'.markets = c.markets := by
      apply Registry.eq_of_get?_eq
      intro market
      exact haccrued.others market List.not_mem_nil
    rw [haccrued.rest, hmarkets]
  · rintro rfl
    exact ⟨rfl, nofun, fun _ _ => rfl⟩

/-- The first market is brought up to the time, and then the others are. -/
theorem accrued_cons (hmarket : market ∉ markets) :
    c.Accrued now (market :: markets) c' ↔
      ∃ listing state event, c.listed? market = some listing ∧
        listing.state.accrue now = .ok (state, event) ∧
        (c.setState market listing state).Accrued now markets c' := by
  constructor
  · intro hall
    obtain ⟨listing, state, event, hlisted, haccrue, hstate⟩ :=
      hall.accrued market List.mem_cons_self
    refine ⟨listing, state, event, hlisted, haccrue, hall.rest, ?_, ?_⟩
    · intro other hother
      have hne : market ≠ other := fun heq => hmarket (heq ▸ hother)
      rw [listed?_setState state hlisted, if_neg hne]
      exact hall.accrued other (List.mem_cons_of_mem market hother)
    · intro other hother
      rw [get?_setState]
      split
      next heq => exact heq ▸ hstate
      next hne => exact hall.others other (List.not_mem_cons_of_ne_of_not_mem (Ne.symm hne) hother)
  · rintro ⟨listing, state, event, hlisted, haccrue, hrest⟩
    refine ⟨hrest.rest, ?_, ?_⟩
    · intro other hother
      rcases List.mem_cons.mp hother with rfl | hother
      · refine ⟨listing, state, event, hlisted, haccrue, ?_⟩
        rw [hrest.others other hmarket, get?_setState, if_pos rfl]
      · have hne : market ≠ other := fun heq => hmarket (heq ▸ hother)
        have haccrued := hrest.accrued other hother
        rwa [listed?_setState state hlisted, if_neg hne] at haccrued
    · intro other hother
      obtain ⟨hne, hother⟩ := not_or.mp (mt List.mem_cons.mpr hother)
      rw [hrest.others other hother, get?_setState, if_neg (Ne.symm hne)]

namespace Accrued

theorem listed?_of_notMem (haccrued : c.Accrued now markets c') (hmarket : market ∉ markets) :
    c'.listed? market = c.listed? market := by
  unfold listed?
  rw [haccrued.others market hmarket]

theorem unique (haccrued : c.Accrued now markets c') {c'' : Controller}
    (haccrued' : c.Accrued now markets c'') : c' = c'' := by
  have hmarkets : c'.markets = c''.markets := by
    apply Registry.eq_of_get?_eq
    intro market
    by_cases hmarket : market ∈ markets
    · obtain ⟨listing, state, event, hlisted, haccrue, hstate⟩ := haccrued.accrued market hmarket
      obtain ⟨_, _, _, hlisted', haccrue', hstate'⟩ := haccrued'.accrued market hmarket
      cases hlisted.symm.trans hlisted'
      cases haccrue.symm.trans haccrue'
      rw [hstate, hstate']
    · rw [haccrued.others market hmarket, haccrued'.others market hmarket]
  rw [haccrued.rest, haccrued'.rest, hmarkets]

/-- The markets are up to date afterwards. -/
theorem exists_fresh (haccrued : c.Accrued now markets c') (hmarket : market ∈ markets) :
    ∃ listing, c'.listed? market = some listing ∧ listing.state.accrualTimestamp = now := by
  obtain ⟨listing, state, event, hlisted, haccrue, hstate⟩ := haccrued.accrued market hmarket
  exact ⟨{ listing with state }, listed?_eq_some.mpr ⟨hstate, (listed?_eq_some.mp hlisted).2⟩,
    (Market.accrue_accrualTimestamp haccrue).2⟩

/-- The same markets are listed. -/
theorem listedMarkets_eq (haccrued : c.Accrued now markets c') :
    c'.listedMarkets = c.listedMarkets := by
  apply Name.eq_of_mem_iff c'.pairwise_listedMarkets c.pairwise_listedMarkets
  intro market
  rw [mem_listedMarkets, mem_listedMarkets]
  by_cases hmarket : market ∈ markets
  · obtain ⟨listing, -, -, hlisted, -⟩ := haccrued.accrued market hmarket
    obtain ⟨listing', hlisted', -⟩ := haccrued.exists_fresh hmarket
    exact ⟨fun _ => ⟨listing, hlisted⟩, fun _ => ⟨listing', hlisted'⟩⟩
  · rw [haccrued.listed?_of_notMem hmarket]

end Accrued

/-- Markets that are up to date already stay as they are. -/
theorem accrued_self_iff : c.Accrued now markets c ↔
    ∀ market ∈ markets, ∃ listing, c.listed? market = some listing ∧
      listing.state.accrualTimestamp = now := by
  constructor
  · exact fun haccrued _ => haccrued.exists_fresh
  · intro hfresh
    refine ⟨rfl, ?_, fun _ _ => rfl⟩
    intro market hmarket
    obtain ⟨listing, hlisted, rfl⟩ := hfresh market hmarket
    exact ⟨listing, listing.state, none, hlisted, if_pos rfl, (listed?_eq_some.mp hlisted).1⟩

end Controller

namespace Operation

/-! ## Where accruals end -/

/-- Markets that can be brought up to a time are, one after the other. -/
theorem exists_runOn_mapM_accrue (hmarkets : markets.Nodup) :
    (∃ events, (markets.mapM fun market => accrue market now).runOn c = (.ok events, c')) ↔
      c.Accrued now markets c' := by
  induction markets generalizing c with
  | nil =>
      rw [accrued_nil]
      constructor
      · rintro ⟨events, hrun⟩
        cases hrun
        rfl
      · rintro rfl
        exact ⟨[], rfl⟩
  | cons market rest ih =>
      obtain ⟨hmarket, hrest⟩ := List.nodup_cons.mp hmarkets
      simp only [accrued_cons hmarket, ← ih hrest, List.mapM_cons, runOn_bind_eq_ok,
        runOn_pure_eq_ok]
      constructor
      · rintro ⟨_, event, c₁, hfirst, events, _, hevents, -, rfl⟩
        obtain ⟨listing, state, hlisted, haccrue, rfl⟩ := runOn_tryOnMarket_eq_ok.mp hfirst
        exact ⟨listing, state, event, hlisted, haccrue, events, hevents⟩
      · rintro ⟨listing, state, event, hlisted, haccrue, events, hevents⟩
        have hfirst : (accrue market now).runOn c = (.ok event, c.setState market listing state) :=
          runOn_tryOnMarket_eq_ok.mpr ⟨listing, state, hlisted, haccrue, rfl⟩
        exact ⟨event :: events, event, _, hfirst, events, c', hevents, rfl, rfl⟩

theorem runOn_accrue_eq_error (hlisted : c.listed? market = some listing) :
    (accrue market now).runOn c = (.error e, c') ↔
      c' = c ∧ ∃ cause, listing.state.accrue now = .error cause ∧ e = .ofMarket market cause := by
  rw [accrue, runOn_tryOnMarket_of_listed hlisted]
  cases listing.state.accrue now with
  | ok accrued => simp
  | error cause => simp [eq_comm, and_comm]

/-- The first market that cannot be brought up to the time ends it. -/
theorem runOn_accrueAll_eq_error :
    (accrueAll now).runOn c = (.error e, c') ↔ ∃ before market after listing cause,
      c.listedMarkets = before ++ market :: after ∧ c.Accrued now before c' ∧
        c.listed? market = some listing ∧ listing.state.accrue now = .error cause ∧
          e = .ofMarket market cause := by
  simp only [accrueAll, runOn_get_bind, runOn_bind_eq_error, runOn_pure, Prod.mk.injEq,
    reduceCtorEq, false_and, and_false, exists_false, or_false, runOn_mapM_eq_error]
  constructor
  · rintro ⟨before, market, after, events, c₁, heq, hbefore, hfails⟩
    obtain ⟨hnodup, hmarket⟩ := nodup_and_notMem_of_listedMarkets_eq heq
    have haccrued := (exists_runOn_mapM_accrue hnodup).mp ⟨events, hbefore⟩
    have hmem : market ∈ c.listedMarkets := by
      rw [heq]
      exact List.mem_append_right before List.mem_cons_self
    obtain ⟨listing, hlisted⟩ := mem_listedMarkets.mp hmem
    have hstill := (haccrued.listed?_of_notMem hmarket).trans hlisted
    obtain ⟨rfl, cause, hcause, he⟩ := (runOn_accrue_eq_error hstill).mp hfails
    exact ⟨before, market, after, listing, cause, heq, haccrued, hlisted, hcause, he⟩
  · rintro ⟨before, market, after, listing, cause, heq, haccrued, hlisted, hcause, he⟩
    obtain ⟨hnodup, hmarket⟩ := nodup_and_notMem_of_listedMarkets_eq heq
    obtain ⟨events, hbefore⟩ := (exists_runOn_mapM_accrue hnodup).mpr haccrued
    have hstill := (haccrued.listed?_of_notMem hmarket).trans hlisted
    exact ⟨before, market, after, events, c', heq, hbefore,
      (runOn_accrue_eq_error hstill).mpr ⟨rfl, cause, hcause, he⟩⟩

/-- Where not all listed markets can be brought up to a time, those before the
first that cannot stay up to date, and everything else is as it was. So nothing
has changed exactly if they were up to date already. Another try fails alike
and changes nothing. -/
theorem accrueAll_ends_at_first (hrun : (accrueAll now).runOn c = (.error e, c')) :
    (∃ before market after listing cause, c.listedMarkets = before ++ market :: after ∧
      c.Accrued now before c' ∧ c.listed? market = some listing ∧
      listing.state.accrue now = .error cause ∧ e = .ofMarket market cause ∧
      (c' = c ↔ ∀ other ∈ before, ∃ listing, c.listed? other = some listing ∧
        listing.state.accrualTimestamp = now)) ∧
    (accrueAll now).runOn c' = (.error e, c') := by
  obtain ⟨before, market, after, listing, cause, heq, haccrued, hlisted, hcause, he⟩ :=
    runOn_accrueAll_eq_error.mp hrun
  constructor
  · refine ⟨before, market, after, listing, cause, heq, haccrued, hlisted, hcause, he, ?_⟩
    constructor
    · rintro rfl
      exact accrued_self_iff.mp haccrued
    · intro hfresh
      exact haccrued.unique (accrued_self_iff.mpr hfresh)
  · have hmarket := (nodup_and_notMem_of_listedMarkets_eq heq).2
    apply runOn_accrueAll_eq_error.mpr
    exact ⟨before, market, after, listing, cause, haccrued.listedMarkets_eq.trans heq,
      accrued_self_iff.mpr fun _ => haccrued.exists_fresh,
      (haccrued.listed?_of_notMem hmarket).trans hlisted, hcause, he⟩

end Operation

namespace Controller

/-- The heated sample, with a market before the one that is too hot. -/
def stoppedSample : Controller :=
  heatedSample.after (.listMarket ⟨"admin"⟩ collateralMarket collateralMarket_created)

theorem stoppedSample_reachable : stoppedSample.Reachable := heatedSample_reachable.called _

/-- The failure of the market that is too hot. -/
def heatedError : ControllerError :=
  .excessiveInterestRate ⟨.ofUInt64 10_000_000_000_000⟩ ⟨.ofUInt64 5_000_000_000_000⟩

/-- A second try fails like the first one, and changes nothing. -/
theorem stoppedSample_ends_at_first :
    ∃ c', (accrueAll 10).runOn stoppedSample = (.error heatedError, c') ∧
      (accrueAll 10).runOn c' = (.error heatedError, c') := by
  have hfails : ((accrueAll 10).runOn stoppedSample).1 = .error heatedError := by
    decide +kernel
  cases hrun : (accrueAll 10).runOn stoppedSample with
  | mk result c' =>
      rw [hrun] at hfails
      cases hfails
      exact ⟨c', rfl, (accrueAll_ends_at_first hrun).2⟩

/-- The accrual of the second market fails, and the first one has moved on: the
failure does not leave the controller untouched. -/
theorem stoppedSample_half_accrued : stoppedSample.Reachable ∧
    ((accrueAll 10).runOn stoppedSample).1 = .error heatedError ∧
    ((accrueAll 10).runOn stoppedSample).2 ≠ stoppedSample ∧
    (stoppedSample.market? ⟨"jETH"⟩).map Market.accrualTimestamp = some 0 ∧
    (((accrueAll 10).runOn stoppedSample).2.market? ⟨"jETH"⟩).map Market.accrualTimestamp =
      some 10 := by
  refine ⟨stoppedSample_reachable, ?_, ?_, ?_, ?_⟩
  all_goals decide +kernel

end Controller

end MoneyMarket
