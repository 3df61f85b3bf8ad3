import MoneyMarket.Proofs.Controller.Enrolment
import MoneyMarket.Proofs.Controller.Soundness
import MoneyMarket.Proofs.Market.Freshness

/-! # Markets above the ceiling

An accrual that fails because the borrow rate is above its ceiling leaves the
market stale. From then on nobody can lower the rate: a new rate model, a
repayment and a supply all need a fresh market. Only a market without tokens
can be delisted and listed anew. Every other market stays frozen, whatever is
called from that time on, by the admin or anyone.
-/

namespace MoneyMarket

open Controller Market Operation

variable {c c' : Controller} {market : MarketId} {m : Market} {listing : Listing}
  {now later : UInt64} {rate max : Wad}

/-! ## Accruals that fail -/

theorem ControllerError.ofMarket_eq_excessive {e : MarketError} :
    ofMarket market e = .excessiveInterestRate rate max ↔ e = .excessiveInterestRate rate max := by
  constructor
  · intro heq
    cases e with
    | excessiveInterestRate =>
        cases heq
        rfl
    | rateModel cause => cases cause <;> cases heq
    | _ => cases heq
  · rintro rfl
    rfl

/-- An accrual on the controller fails at the ceiling as it does on the market. -/
theorem Operation.accrue_eq_excessive (hlisted : c.listed? market = some listing) :
    ((accrue market now).runOn c).1 = .error (.excessiveInterestRate rate max) ↔
      listing.state.accrue now = .error (.excessiveInterestRate rate max) := by
  rw [accrue, runOn_tryOnMarket_of_listed hlisted]
  cases listing.state.accrue now with
  | ok accrued => simp
  | error cause => simp only [Except.error.injEq, ControllerError.ofMarket_eq_excessive]

/-! ## Frozen markets -/

/-- A market is listed with the figures that it has. -/
def Controller.Figures (market : MarketId) (m : Market) (c : Controller) : Prop :=
  ∃ listing, c.listed? market = some listing ∧ m.SameFigures listing.state

theorem Controller.Figures.setListing {other : MarketId} (hc : c.Figures market m)
    (hlisted : other = market → listing.policy.isListed = true ∧ m.SameFigures listing.state) :
    (c.setListing other listing).Figures market m := by
  obtain ⟨found, hfound, hsame⟩ := hc
  unfold Figures
  rw [listed?_setListing]
  by_cases heq : other = market
  · obtain ⟨hpolicy, hstate⟩ := hlisted heq
    rw [if_pos heq, if_pos hpolicy]
    exact ⟨listing, rfl, hstate⟩
  · rw [if_neg heq]
    exact ⟨found, hfound, hsame⟩

/-- No step of a call changes the figures of a market with tokens, once an
accrual before the call failed at the ceiling. -/
theorem Controller.Call.preserves_figures {call : Call} (hsupply : m.totalSupply ≠ 0)
    (herror : m.accrue now = .error (.excessiveInterestRate rate max))
    (htimes : ∀ later, call.time? = some later → now ≤ later) :
    call.Preserves (Figures market m) := by
  intro c c' hc hstep
  have hsame : ∀ listing, c.listed? market = some listing → m.SameFigures listing.state := by
    intro listing hlisted
    obtain ⟨found, hfound, hsame⟩ := hc
    cases hlisted.symm.trans hfound
    exact hsame
  cases hstep with
  | performed hperforms _ htime =>
      obtain ⟨listing, state, events, hlisted, hperform, rfl⟩ := hperforms
      refine hc.setListing ?_
      rintro rfl
      refine ⟨(listed?_eq_some.mp hlisted).2, ?_⟩
      have hbefore := hsame listing hlisted
      exact hbefore.trans (sameFigures_of_perform hperform
        (hbefore.accrue_eq_excessive herror (UInt64.le_refl now))
        fun later hlater => htimes later (htime later hlater))
  | entered | left => exact hc
  | @listed m' hm' _ hunlisted =>
      refine hc.setListing ?_
      rintro rfl
      -- a listed market is not listed anew
      obtain ⟨found, hfound, -⟩ := hc
      rw [isListed_of_listed? hfound] at hunlisted
      cases hunlisted
  | @delisted other listing _ hlisted hzero =>
      have hkept : Figures market m (c.setListing other
          { listing with policy := { listing.policy with isListed := false } }) := by
        refine hc.setListing ?_
        rintro rfl
        obtain ⟨kind, balances, hstate⟩ := hsame listing hlisted
        rw [hstate] at hzero
        exact absurd hzero hsupply
      exact hkept
  | policySet hlisted hsets =>
      refine hc.setListing ?_
      rintro rfl
      have hkept := hsame _ hlisted
      exact ⟨hsets.isListed_eq.trans (listed?_eq_some.mp hlisted).2, hkept⟩
  | termsSet hsets =>
      unfold Figures listed?
      rw [hsets.markets_eq]
      exact hc

theorem Controller.Figures.foldl {calls : List Call} (hc : c.Figures market m)
    (hsupply : m.totalSupply ≠ 0)
    (herror : m.accrue now = .error (.excessiveInterestRate rate max))
    (htimes : ∀ call ∈ calls, ∀ later, call.time? = some later → now ≤ later) :
    (calls.foldl after c).Figures market m := by
  induction calls generalizing c with
  | nil => exact hc
  | cons call rest ih =>
      obtain ⟨hcall, hrest⟩ := List.forall_mem_cons.mp htimes
      exact ih ((Call.preserves_figures hsupply herror hcall).keeps c hc) hrest

/-- No calls from the time of the failure on make an accrual succeed. -/
theorem Controller.accrue_fails_after_foldl {calls : List Call}
    (hlisted : c.listed? market = some listing) (hsupply : listing.state.totalSupply ≠ 0)
    (hfails : ((accrue market now).runOn c).1 =
      .error (.excessiveInterestRate rate max))
    (htimes : ∀ call ∈ calls, ∀ later, call.time? = some later → now ≤ later)
    (hlater : now ≤ later) :
    ((accrue market later).runOn (calls.foldl after c)).1 =
      .error (.excessiveInterestRate rate max) := by
  have herror := (accrue_eq_excessive hlisted).mp hfails
  have hfigures : c.Figures market listing.state := ⟨listing, hlisted, .refl _⟩
  obtain ⟨found, hfound, hsame⟩ := hfigures.foldl hsupply herror htimes
  exact (accrue_eq_excessive hfound).mpr (hsame.accrue_eq_excessive herror hlater)

/-! ## Listing anew -/

theorem Controller.after_delistMarket (hlisted : c.listed? market = some listing)
    (hsupply : listing.state.totalSupply = 0) :
    c.after (.delistMarket c.admin market) = (c.setListing market
      { listing with policy := { listing.policy with isListed := false } }).setMemberships
        (c.memberships.close market) := by
  have hfound : (liftM (c.listed market) : Operation Listing).runOn c = (.ok listing, c) := by
    rw [runOn_liftM, listed_eq_ok.mpr hlisted]
  have hpolicy : (onPolicy market fun policy => { policy with isListed := false }).runOn c =
      (.ok (), c.setListing market
        { listing with policy := { listing.policy with isListed := false } }) :=
    runOn_onPolicy_eq_ok.mpr ⟨listing, hlisted, rfl⟩
  unfold after
  rw [Call.operation, runOn_silently_snd]
  simp only [delistMarket, runOn_requireAdmin_bind, if_true, runOn_get_bind,
    runOn_bind_of_ok hfound, hsupply, ne_eq, not_true_eq_false, if_false,
    runOn_bind_of_ok hpolicy, runOn_modify_bind, runOn_pure]
  rfl

theorem Controller.after_listMarket (hm : m.Created) (hunlisted : c.isListed m.id = false) :
    c.after (.listMarket c.admin m hm) = c.setListing m.id ⟨m, { isListed := true }⟩ := by
  unfold after
  rw [Call.operation, runOn_silently_snd]
  simp only [listMarket, runOn_requireAdmin_bind, if_true, runOn_get_bind, hunlisted,
    Bool.false_eq_true, if_false, runOn_set_bind, runOn_pure]

/-- There are new markets in which borrowing costs nothing. -/
theorem Market.exists_created_accrues (id : MarketId) (now : UInt64) :
    ∃ m : Market, m.Created ∧ m.id = id ∧ m.accrualTimestamp = now ∧
      ∀ later, now ≤ later → ∃ m' event, m.accrue later = .ok (m', event) := by
  let rateModel := RateModel.jumpRate ⟨⟨0, 0, 0⟩, 1, 1⟩
  have hrate : rateModel.borrowRate 0 0 0 = .ok 0 := by decide +kernel
  obtain ⟨m, hmake⟩ : ∃ m, make id .vanilla rateModel 1 now = .ok m := ⟨_, rfl⟩
  refine ⟨m, .make hmake, ?_⟩
  simp only [make, guard_eq_ok, pure_eq_ok] at hmake
  obtain ⟨-, rfl⟩ := hmake
  refine ⟨rfl, rfl, ?_⟩
  intro later hlater
  exact exists_accrue_of_free hrate hlater

/-- The admin can list a market without tokens anew, at any time, so that
accruals succeed from then on. -/
theorem Controller.exists_relisted (hlisted : c.listed? market = some listing)
    (hsupply : listing.state.totalSupply = 0) (now : UInt64) :
    ∃ m, ∃ hm : m.Created, m.id = market ∧ m.accrualTimestamp = now ∧
      ((c.after (.delistMarket c.admin market)).after (.listMarket c.admin m hm)).market? market =
        some m ∧
      ∀ later, now ≤ later → ∃ event, ((accrue market later).runOn
        ((c.after (.delistMarket c.admin market)).after (.listMarket c.admin m hm))).1 =
          .ok event := by
  obtain ⟨m, hm, rfl, hnow, haccrues⟩ := exists_created_accrues market now
  refine ⟨m, hm, rfl, hnow, ?_⟩
  have hdelisted := after_delistMarket hlisted hsupply
  have hunlisted : (c.after (.delistMarket c.admin m.id)).isListed m.id = false := by
    rw [hdelisted]
    change (c.setListing m.id _).isListed m.id = false
    rw [isListed, listed?_setListing, if_pos rfl]
    rfl
  have hadmin : (c.after (.delistMarket c.admin m.id)).admin = c.admin := by
    rw [hdelisted]
    rfl
  have hrelisted := after_listMarket hm hunlisted
  rw [hadmin] at hrelisted
  rw [hrelisted]
  refine ⟨congrArg (Option.map Listing.state) (Registry.get?_insert_self ..), ?_⟩
  intro later hlater
  obtain ⟨m', event, haccrue⟩ := haccrues later hlater
  have hfound : ((c.after (.delistMarket c.admin m.id)).setListing m.id
      ⟨m, { isListed := true }⟩).listed? m.id = some ⟨m, { isListed := true }⟩ := by
    rw [listed?_setListing, if_pos rfl]
    rfl
  rw [Operation.accrue, runOn_tryOnMarket_of_listed hfound, haccrue]
  exact ⟨event, rfl⟩

/-- An accrual that fails at the ceiling freezes the market for good, unless it
has no tokens. Then the admin can delist it and list it anew, which takes no
tokens from anyone. Otherwise all accruals fail from that time on, whatever is
called. -/
theorem Controller.Reachable.frozen_unless_empty (hc : c.Reachable)
    (hlisted : c.listed? market = some listing)
    (hfails : ((accrue market now).runOn c).1 = .error (.excessiveInterestRate rate max)) :
    (listing.state.totalSupply = 0 → ∃ m, ∃ hm : m.Created, m.accrualTimestamp = now ∧
      ((c.after (.delistMarket c.admin market)).after (.listMarket c.admin m hm)).market? market =
        some m ∧
      (∀ account, m.tokenBalance account = listing.state.tokenBalance account) ∧
      ∀ later, now ≤ later → ∃ event, ((accrue market later).runOn
        ((c.after (.delistMarket c.admin market)).after (.listMarket c.admin m hm))).1 =
          .ok event) ∧
    (listing.state.totalSupply ≠ 0 → ∀ calls : List Call,
      (∀ call ∈ calls, ∀ time, call.time? = some time → now ≤ time) →
        ∀ later, now ≤ later → ((accrue market later).runOn (calls.foldl after c)).1 =
          .error (.excessiveInterestRate rate max)) := by
  constructor
  · intro hsupply
    obtain ⟨m, hm, -, hnow, hrelisted, haccrues⟩ := exists_relisted hlisted hsupply now
    refine ⟨m, hm, hnow, hrelisted, ?_, haccrues⟩
    intro account
    -- nobody has tokens, neither before nor after
    have hconsistent := (hc.sound.reachable_of_listed hlisted).consistent
    have hnone : listing.state.tokenBalance account = 0 := by
      have hle := listing.state.balances.of_le_total account
      rw [← hconsistent.supply, hsupply] at hle
      exact Amount.eq_zero_iff.mpr (Nat.le_zero.mp hle)
    rw [hnone, tokenBalance, hm.isNew.balances]
    rfl
  · intro hsupply calls htimes later
    exact accrue_fails_after_foldl hlisted hsupply hfails htimes

namespace Controller

/-- A rate above the ceiling of the market, whatever is lent out. -/
def steepModel : RateModel := .jumpRate ⟨⟨⟨.ofUInt64 10_000_000_000_000⟩, 0, 0⟩, 1, 1⟩

/-- The sample under a rate model that its market cannot accrue with. -/
def heatedSample : Controller :=
  sample.after (.setInterestRateModel ⟨"admin"⟩ ⟨"jUSD"⟩ steepModel 0)

theorem heatedSample_reachable : heatedSample.Reachable := sample_reachable.called _

theorem heatedSample_listed : ∃ listing, heatedSample.listed? ⟨"jUSD"⟩ = some listing ∧
    listing.state.totalSupply ≠ 0 ∧ listing.state.accrualTimestamp = 0 := by
  have hfigures : (heatedSample.listed? ⟨"jUSD"⟩).map
      (fun listing => (listing.state.totalSupply, listing.state.accrualTimestamp)) =
        some (⟨1_000_000_010, by decide⟩, 0) := by decide +kernel
  obtain ⟨listing, hlisted, hfigures⟩ := Option.map_eq_some_iff.mp hfigures
  obtain ⟨hsupply, htime⟩ := Prod.mk.inj hfigures
  exact ⟨listing, hlisted, by rw [hsupply]; decide, htime⟩

theorem heatedSample_fails : ((Operation.accrue ⟨"jUSD"⟩ 10).runOn heatedSample).1 =
    .error (.excessiveInterestRate ⟨⟨10_000_000_000_000, by decide⟩⟩
      ⟨⟨5_000_000_000_000, by decide⟩⟩) := by
  decide +kernel

/-- Another rate model comes too late, and accruals go on failing. -/
theorem heatedSample_stays_frozen : ((Operation.accrue ⟨"jUSD"⟩ 20).runOn (heatedSample.after
    (.setInterestRateModel ⟨"admin"⟩ ⟨"jUSD"⟩ sampleMarket.rateModel 10))).1 =
      .error (.excessiveInterestRate ⟨⟨10_000_000_000_000, by decide⟩⟩
        ⟨⟨5_000_000_000_000, by decide⟩⟩) := by
  obtain ⟨listing, hlisted, hsupply, -⟩ := heatedSample_listed
  have hfrozen := heatedSample_reachable.frozen_unless_empty hlisted heatedSample_fails
  refine hfrozen.2 hsupply [.setInterestRateModel ⟨"admin"⟩ ⟨"jUSD"⟩ sampleMarket.rateModel 10]
    ?_ 20 (by decide)
  intro call hcall time htime
  cases List.mem_singleton.mp hcall
  cases htime
  decide

/-- A market can be frozen for good: it has tokens and an accrual fails at the
ceiling, and no calls from that time on make an accrual succeed. -/
theorem heatedSample_frozen : heatedSample.Reachable ∧
    (∃ listing, heatedSample.listed? ⟨"jUSD"⟩ = some listing ∧
      listing.state.accrualTimestamp ≤ 10) ∧
    ((Operation.accrue ⟨"jUSD"⟩ 10).runOn heatedSample).1 =
      .error (.excessiveInterestRate ⟨⟨10_000_000_000_000, by decide⟩⟩
        ⟨⟨5_000_000_000_000, by decide⟩⟩) ∧
    ¬∃ calls : List Call,
      (∀ call ∈ calls, ∀ time, call.time? = some time → 10 ≤ time) ∧
        ∃ later event, 10 ≤ later ∧
          ((Operation.accrue ⟨"jUSD"⟩ later).runOn (calls.foldl after heatedSample)).1 =
            .ok event := by
  obtain ⟨listing, hlisted, hsupply, htime⟩ := heatedSample_listed
  refine ⟨heatedSample_reachable, ⟨listing, hlisted, by rw [htime]; decide⟩, heatedSample_fails, ?_⟩
  rintro ⟨calls, htimes, later, event, hlater, hok⟩
  rw [accrue_fails_after_foldl hlisted hsupply heatedSample_fails htimes hlater] at hok
  cases hok

end Controller

end MoneyMarket
