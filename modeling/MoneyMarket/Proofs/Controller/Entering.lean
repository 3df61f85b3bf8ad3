import MoneyMarket.Proofs.Controller.Dealings
import MoneyMarket.Proofs.Controller.Valuation
import MoneyMarket.Proofs.Memberships

/-! # Borrowing as a new member

Who borrows without being a member of the market enters it on the way. The
borrow is judged before anything is entered, by the collateral that entering
would register. This is no different from entering first and borrowing then:
both ways succeed on the same controllers, and with the same outcome.
-/

namespace MoneyMarket

open Controller Market Operation

variable {c c' : Controller} {market other : MarketId} {now : UInt64} {prices : Prices}
  {events : List Event} {account borrower : AccountId} {amount : Amount} {listing : Listing}
  {state : Market}

/-! ## Registered tokens -/

/-- Registering changes nothing but registrations. -/
theorem Market.state_of_register {m m' : Market} {registered : List Event}
    (hregister : m.perform (.register account) = .ok (m', registered)) :
    ∃ kind, m' = { m with kind } := by
  obtain ⟨plan, -, hm', -⟩ := perform_register_eq_ok.mp hregister
  exact ⟨m.kind.commit plan, hm'⟩

/-- An account that is no member enters a listed market. -/
structure Controller.Enters (c : Controller) (account : AccountId) (market : MarketId)
    (listing : Listing) (state : Market) (c' : Controller) : Prop where
  listed : c.listed? market = some listing
  notMember : c.isMember account market = false
  registers : ∃ registered, listing.state.perform (.register account) = .ok (state, registered)
  after : c' = (c.setState market listing state).setMemberships
    (c.memberships.enter account market)

namespace Controller.Enters

theorem of_enterMarket (henter : (enterMarket account market).runOn c = (.ok events, c'))
    (hmember : c.isMember account market = false) :
    ∃ listing state, c.Enters account market listing state c' := by
  obtain ⟨listing, hlisted, ⟨hcontra, -⟩ | ⟨-, state, registered, hregister, hafter⟩⟩ :=
    enterMarket_eq_ok henter
  · rw [hmember] at hcontra
    cases hcontra
  · exact ⟨listing, state, hlisted, hmember, ⟨registered, hregister⟩, hafter⟩

/-- An account enters a market if it can register there. -/
theorem of_register {registered : List Event} (hlisted : c.listed? market = some listing)
    (hmember : c.isMember account market = false)
    (hregister : listing.state.perform (.register account) = .ok (state, registered)) :
    ∃ entered c', (enterMarket account market).runOn c = (.ok entered, c') ∧
      c.Enters account market listing state c' := by
  obtain ⟨plan, hplan, -⟩ := perform_register_eq_ok.mp hregister
  have henter : ∃ entered c', (enterMarket account market).runOn c = (.ok entered, c') := by
    rw [enterMarket, runOn_get_bind, runOn_liftM_bind_of_ok (listed_eq_ok.mpr hlisted), hmember]
    simp only [Bool.false_eq_true, if_false]
    rw [runOn_liftM_bind_of_ok (within_eq_ok.mpr hplan)]
    cases plan with
    | none => exact ⟨_, _, rfl⟩
    | some plan =>
        dsimp only
        rw [runOn_bind_of_ok (runOn_onMarket_of_listed hlisted)]
        exact ⟨_, _, rfl⟩
  obtain ⟨entered, c', henter⟩ := henter
  obtain ⟨listing', state', henters⟩ := of_enterMarket henter hmember
  cases hlisted.symm.trans henters.listed
  obtain ⟨registered', hregister'⟩ := henters.registers
  cases hregister.symm.trans hregister'
  exact ⟨entered, c', henter, henters⟩

theorem isMember (henters : c.Enters account market listing state c') :
    c'.isMember account market = true := by
  rw [henters.after]
  exact isMember_enter.mpr (.inr ⟨rfl, rfl⟩)

theorem isMember_of_ne (henters : c.Enters account market listing state c')
    (hne : market ≠ other) : c'.isMember account other = c.isMember account other := by
  rw [henters.after]
  exact isMember_enter_of_ne hne

theorem listed?_after (henters : c.Enters account market listing state c') :
    c'.listed? market = some { listing with state } := by
  rw [henters.after]
  exact listed?_setState_self state henters.listed

theorem get?_after (henters : c.Enters account market listing state c') :
    c'.markets.get? other =
      if market = other then some { listing with state } else c.markets.get? other := by
  rw [henters.after]
  exact get?_setState c market other listing state

theorem planBorrow_eq (henters : c.Enters account market listing state c') :
    state.planBorrow borrower amount now = listing.state.planBorrow borrower amount now := by
  obtain ⟨registered, hregister⟩ := henters.registers
  exact planBorrow_of_register hregister

/-- The collateral on entry is what is registered then. -/
theorem collateralOnEntry_eq (henters : c.Enters account market listing state c') :
    (collateralOnEntry market account).runOn c =
      (.ok (state.collateralTokens account), c) := by
  obtain ⟨registered, hregister⟩ := henters.registers
  obtain ⟨tokens, hrun⟩ : ∃ tokens, (collateralOnEntry market account).runOn c =
      (.ok tokens, c) := by
    obtain ⟨plan, hplan, -⟩ := perform_register_eq_ok.mp hregister
    refine ⟨(plan.bind fun p => p.accounts.get? account).getD
      (listing.state.collateralTokens account), ?_⟩
    refine runOn_planOn_eq_ok.mpr ⟨listing, henters.listed, ?_, rfl⟩
    simp only [bind_eq_ok, pure_eq_ok]
    exact ⟨plan, hplan, rfl⟩
  obtain ⟨-, _, state', registered', hsame, hregister', rfl⟩ := collateralOnEntry_eq_ok hrun
  cases henters.listed.symm.trans hsame
  cases hregister.symm.trans hregister'
  exact hrun

/-! ## The gate before and after the entry -/

/-- The markets that bear on the liquidity are the same. -/
theorem exposureAfter_eq (henters : c.Enters account market listing state c')
    (entering : Option Amount) :
    c'.exposureAfter account (some { market, borrowAmount := amount }) =
      c.exposureAfter account
        (some { market, borrowAmount := amount, enteringCollateral := entering }) := by
  apply exposureAfter_ext
  intro k
  simp only [exposureAfter, Name.mem_insertDistinct, mem_exposure, henters.get?_after]
  by_cases heq : market = k
  · simp [heq]
  · rw [henters.isMember_of_ne heq, if_neg heq]

/-- The entered market adds the same to the sums, as what was to be registered
has been. -/
theorem addMarket_eq (henters : c.Enters account market listing state c') (sums : Sums)
    (k : MarketId) :
    c'.addMarket account (some { market, borrowAmount := amount }) prices sums k =
      c.addMarket account (some {
        market, borrowAmount := amount,
        enteringCollateral := some (state.collateralTokens account) }) prices sums k := by
  have hcredit : c'.isCreditAccount account = c.isCreditAccount account := by
    rw [henters.after]
    rfl
  unfold addMarket
  rw [henters.get?_after, hcredit]
  by_cases heq : market = k
  · obtain ⟨registered, hregister⟩ := henters.registers
    obtain ⟨kind, hstate⟩ := state_of_register hregister
    have hposition : state.position account =
        (fun p => { p with collateralTokens := state.collateralTokens account }) <$>
          listing.state.position account := by
      rw [hstate]
      unfold position
      simp only [map_bind, map_pure]
      rfl
    subst heq
    rw [if_pos rfl, (listed?_eq_some.mp henters.listed).1]
    simp only [Option.filter_some, decide_true, if_true, hposition, henters.isMember,
      Option.bind_some, Option.isNone_some, Bool.not_true, Bool.false_and, Bool.and_false,
      Option.getD_none, Option.getD_some]
    cases listing.state.position account with
    | error e => rfl
    | ok p => rfl
  · rw [if_neg heq, henters.isMember_of_ne heq]
    simp [Option.filter, heq]

theorem liquidityAfter_eq (henters : c.Enters account market listing state c') :
    c'.liquidityAfter account (some { market, borrowAmount := amount }) prices =
      c.liquidityAfter account (some {
        market, borrowAmount := amount,
        enteringCollateral := some (state.collateralTokens account) }) prices := by
  have hlimit : c'.creditLimit? account = c.creditLimit? account := by
    rw [henters.after]
    rfl
  unfold liquidityAfter
  rw [hlimit, henters.exposureAfter_eq, funext₂ henters.addMarket_eq]

/-- A borrow is judged before the entry as it is after it. -/
theorem borrowVerdict_eq (henters : c.Enters account market listing state c') :
    c'.borrowVerdict market account amount none prices =
      c.borrowVerdict market account amount (some (state.collateralTokens account)) prices := by
  obtain ⟨registered, hregister⟩ := henters.registers
  obtain ⟨kind, hstate⟩ := state_of_register hregister
  have hborrows : state.totalBorrows = listing.state.totalBorrows := by rw [hstate]
  unfold borrowVerdict
  rw [henters.listed?_after, henters.listed]
  simp only [hborrows, henters.liquidityAfter_eq]

end Controller.Enters

/-! ## Both ways -/

namespace Operation

theorem enterMarket_of_member (hlisted : c.listed? market = some listing)
    (hmember : c.isMember account market = true) :
    (enterMarket account market).runOn c = (.ok [], c) := by
  simp only [enterMarket, runOn_get_bind, listed_eq_ok.mpr hlisted, hmember, if_true]
  rfl

/-- A borrow by an account that is no member goes through the entry. -/
theorem enterMarket_of_borrow (hmember : c.isMember borrower market = false)
    (hborrow : (borrow borrower market amount now prices).runOn c = (.ok events, c')) :
    ∃ entered c₁, (enterMarket borrower market).runOn c = (.ok entered, c₁) := by
  simp only [borrow, runOn_planOn_bind_eq_ok, runOn_get_bind, hmember, Bool.false_eq_true,
    if_false] at hborrow
  obtain ⟨listing, plan, -, -, hborrow⟩ := hborrow
  obtain ⟨entering, c₁, hentry, hjudged⟩ := runOn_bind_eq_ok.mp hborrow
  obtain ⟨tokens, htokens, rfl⟩ := runOn_map_eq_ok.mp hentry
  obtain ⟨rfl, -⟩ := collateralOnEntry_eq_ok htokens
  obtain ⟨-, hallowed⟩ := runOn_passGate_bind_eq_ok.mp hjudged
  obtain ⟨entered, c₂, henter, -⟩ := runOn_bind_eq_ok.mp hallowed
  exact ⟨entered, c₂, henter⟩

/-- A member only borrows. -/
theorem borrow_eq_ok_of_member (hlisted : c.listed? market = some listing)
    (hmember : c.isMember borrower market = true) :
    (borrow borrower market amount now prices).runOn c = (.ok events, c') ↔
      ∃ plan, listing.state.planBorrow borrower amount now = .ok plan ∧
        c.borrowVerdict market borrower amount none prices = .ok .allow ∧
        (listing.state.settleBorrow plan).2 = events ∧
        c.setState market listing (listing.state.settleBorrow plan).1 = c' := by
  have hsettle : ∀ plan, (onMarket market fun m => m.settleBorrow plan).runOn c =
      (.ok (listing.state.settleBorrow plan).2,
        c.setState market listing (listing.state.settleBorrow plan).1) :=
    fun plan => runOn_onMarket_of_listed hlisted
  simp only [borrow, runOn_planOn_bind_eq_ok, runOn_get_bind, hlisted, hmember, if_true, pure_bind,
    runOn_passGate_bind_eq_ok, Option.isSome_none, Bool.false_eq_true, if_false,
    runOn_bind_of_ok (hsettle _), runOn_pure, List.nil_append, Option.some.injEq,
    exists_and_left, exists_eq_left', Prod.mk.injEq, Except.ok.injEq]

/-- Who is no member is judged, enters and borrows. -/
theorem borrow_eq_ok_of_enters {entered : List Event} {c₁ : Controller}
    (henter : (enterMarket borrower market).runOn c = (.ok entered, c₁))
    (henters : c.Enters borrower market listing state c₁) :
    (borrow borrower market amount now prices).runOn c = (.ok events, c') ↔
      ∃ plan, state.planBorrow borrower amount now = .ok plan ∧
        c₁.borrowVerdict market borrower amount none prices = .ok .allow ∧
        entered ++ (state.settleBorrow plan).2 = events ∧
        c₁.setState market { listing with state } (state.settleBorrow plan).1 = c' := by
  have hentry : (some <$> collateralOnEntry market borrower).runOn c =
      (.ok (some (state.collateralTokens borrower)), c) :=
    runOn_map_eq_ok.mpr ⟨_, henters.collateralOnEntry_eq, rfl⟩
  have hsettle : ∀ plan, (onMarket market fun m => m.settleBorrow plan).runOn c₁ =
      (.ok (state.settleBorrow plan).2,
        c₁.setState market { listing with state } (state.settleBorrow plan).1) :=
    fun plan => runOn_onMarket_of_listed henters.listed?_after
  simp only [borrow, runOn_planOn_bind_eq_ok, runOn_get_bind, henters.notMember, henters.listed,
    henters.planBorrow_eq, henters.borrowVerdict_eq, Bool.false_eq_true, if_false,
    runOn_bind_of_ok hentry, runOn_passGate_bind_eq_ok, Option.isSome_some, if_true,
    runOn_bind_of_ok henter, runOn_bind_of_ok (hsettle _), runOn_pure, Option.some.injEq,
    exists_and_left, exists_eq_left', Prod.mk.injEq, Except.ok.injEq]

/-- A borrow by an account that is no member of the market succeeds exactly
if the account can enter the market and borrow then, and comes to the same: the
same controller, and the same events in the same order. -/
theorem borrow_eq_ok_iff_enterMarket :
    (borrow borrower market amount now prices).runOn c = (.ok events, c') ↔
      ∃ entered c₁ borrowed, (enterMarket borrower market).runOn c = (.ok entered, c₁) ∧
        (borrow borrower market amount now prices).runOn c₁ = (.ok borrowed, c') ∧
        entered ++ borrowed = events := by
  cases hmember : c.isMember borrower market with
  | true =>
      constructor
      · intro hborrow
        obtain ⟨listing, -, hlisted, -⟩ := borrow_eq_ok hborrow
        exact ⟨[], c, events, enterMarket_of_member hlisted hmember, hborrow, rfl⟩
      · rintro ⟨entered, c₁, borrowed, henter, hborrow, rfl⟩
        obtain ⟨listing, hlisted, -⟩ := enterMarket_eq_ok henter
        cases (enterMarket_of_member hlisted hmember).symm.trans henter
        exact hborrow
  | false =>
      constructor
      · intro hborrow
        obtain ⟨entered, c₁, henter⟩ := enterMarket_of_borrow hmember hborrow
        obtain ⟨listing, state, henters⟩ := Enters.of_enterMarket henter hmember
        obtain ⟨plan, hplan, hverdict, hevents, hc'⟩ :=
          (borrow_eq_ok_of_enters henter henters).mp hborrow
        exact ⟨entered, c₁, (state.settleBorrow plan).2, henter,
          (borrow_eq_ok_of_member henters.listed?_after henters.isMember).mpr
            ⟨plan, hplan, hverdict, rfl, hc'⟩, hevents⟩
      · rintro ⟨entered, c₁, borrowed, henter, hborrow, rfl⟩
        obtain ⟨listing, state, henters⟩ := Enters.of_enterMarket henter hmember
        obtain ⟨plan, hplan, hverdict, rfl, hc'⟩ :=
          (borrow_eq_ok_of_member henters.listed?_after henters.isMember).mp hborrow
        exact (borrow_eq_ok_of_enters henter henters).mpr ⟨plan, hplan, hverdict, rfl, hc'⟩

end Operation

end MoneyMarket
