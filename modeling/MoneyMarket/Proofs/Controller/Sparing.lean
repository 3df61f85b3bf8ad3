import Mathlib.Algebra.Order.BigOperators.Group.Finset
import MoneyMarket.Proofs.Controller.Soundness
import MoneyMarket.Proofs.Controller.Valuation
import MoneyMarket.Proofs.Market.Sparing

/-! # Dealings spare everyone but the debited

A dealing is at the expense of at most one account: of who redeems, borrows,
sends tokens, leaves a market or is liquidated. At any prices every other
account has no less available after it, and no more is required of it.
-/

namespace MoneyMarket

open Finset Controller Hypothetical Operation

variable {c c' c'' c₀ : Controller} {account : AccountId} {market other : MarketId}
  {prices : Prices} {listing listing' : Listing} {price : Nat}

/-- A change that takes nothing from an account in any market. -/
structure Controller.Spares (account : AccountId) (prices : Prices) (c c' : Controller) :
    Prop where
  limit : c'.creditLimit? account = c.creditLimit? account
  known : c'.known = c.known
  worth : ∀ market, c.worth account none prices market ≤ c'.worth account none prices market
  burden : ∀ market, c'.burden account none prices market ≤ c.burden account none prices market

namespace Controller

theorem Spares.refl (account : AccountId) (prices : Prices) (c : Controller) :
    c.Spares account prices c :=
  ⟨rfl, rfl, fun _ => le_rfl, fun _ => le_rfl⟩

theorem Spares.trans (hfirst : c.Spares account prices c')
    (hsecond : c'.Spares account prices c'') : c.Spares account prices c'' :=
  ⟨hsecond.limit.trans hfirst.limit, hsecond.known.trans hfirst.known,
    fun market => (hfirst.worth market).trans (hsecond.worth market),
    fun market => (hsecond.burden market).trans (hfirst.burden market)⟩

theorem Spares.available_le (hspares : c.Spares account prices c') :
    c.available account none prices ≤ c'.available account none prices := by
  unfold available
  rw [hspares.limit, hspares.known]
  exact Nat.add_le_add_left (sum_le_sum fun market _ => hspares.worth market) _

theorem Spares.required_le (hspares : c.Spares account prices c') :
    c'.required account none prices ≤ c.required account none prices := by
  unfold required
  rw [hspares.known]
  exact sum_le_sum fun market _ => hspares.burden market

/-! ## Calls of markets -/

/-- Tokens are worth more at a higher rate. -/
theorem tokenValue_mul_le {tokens : Nat} (price : Nat) (hpolicy : listing'.policy = listing.policy)
    (hrate : tokens ≠ 0 → listing.state.rate ≤ listing'.state.rate) :
    listing.tokenValue price * tokens ≤ listing'.tokenValue price * tokens := by
  by_cases hzero : tokens = 0
  · rw [hzero, Nat.mul_zero, Nat.mul_zero]
  · have hrate := hrate hzero
    unfold Listing.tokenValue
    rw [hpolicy]
    gcongr

/-- Collateral that goes on counting is worth more with more tokens and at a
higher rate. -/
theorem worthIn_le
    (hcounts : c.Counts account market listing none → c'.Counts account market listing' none)
    (hpolicy : listing'.policy = listing.policy)
    (hcollateral : (listing.state.collateralTokens account).toNat ≤
      (listing'.state.collateralTokens account).toNat)
    (hrate : (listing.state.collateralTokens account).toNat ≠ 0 →
      listing.state.rate ≤ listing'.state.rate) :
    c.worthIn account market listing none price ≤
      c'.worthIn account market listing' none price := by
  rw [worthIn_none, worthIn_none]
  by_cases hbefore : c.Counts account market listing none
  · rw [if_pos hbefore, if_pos (hcounts hbefore)]
    refine Nat.div_le_div_right ((tokenValue_mul_le price hpolicy hrate).trans ?_)
    exact Nat.mul_le_mul_left _ hcollateral
  · rw [if_neg hbefore]
    exact Nat.zero_le _

theorem known_setState (state : Market) (hget : c.markets.get? market = some listing) :
    (c.setState market listing state).known = c.known := by
  ext k
  rw [mem_known, mem_known, get?_setState]
  split
  next heq =>
    rw [← heq, hget]
    exact iff_of_true ⟨_, rfl⟩ ⟨_, rfl⟩
  next => rfl

theorem get?_setState_self (c : Controller) (market : MarketId) (listing : Listing)
    (state : Market) (memberships : Memberships) :
    ((c.setState market listing state).setMemberships memberships).markets.get? market =
      some { listing with state } := by
  have hset := get?_setState c market market listing state
  rwa [if_pos rfl] at hset

theorem get?_setState_of_ne (c : Controller) (listing : Listing) (state : Market)
    (memberships : Memberships) (hne : market ≠ other) :
    ((c.setState market listing state).setMemberships memberships).markets.get? other =
      c.markets.get? other := by
  have hset := get?_setState c market other listing state
  rwa [if_neg hne] at hset

/-- Whoever stays what it was in a market does not notice a change of another. -/
theorem worth_setState_of_ne {state : Market} {memberships : Memberships} (hne : market ≠ other)
    (hmember : (c.setMemberships memberships).isMember account other = c.isMember account other) :
    ((c.setState market listing state).setMemberships memberships).worth account none prices
        other = c.worth account none prices other := by
  unfold worth
  rw [get?_setState_of_ne c listing state memberships hne, at?_none]
  cases c.markets.get? other with
  | none => rfl
  | some unchanged =>
      have hcounts : ((c.setState market listing state).setMemberships memberships).Counts account
          other unchanged none ↔ c.Counts account other unchanged none := by
        unfold Counts
        rw [← hmember]
        rfl
      rw [Option.elim_some, Option.elim_some, worthIn_none, worthIn_none]
      simp only [hcounts]

theorem burden_setState_of_ne {state : Market} {memberships : Memberships}
    (hne : market ≠ other) :
    ((c.setState market listing state).setMemberships memberships).burden account none prices
        other = c.burden account none prices other := by
  rw [burden_none, burden_none, get?_setState_of_ne c listing state memberships hne]

/-- Only the market that changes has to be looked at. -/
theorem Spares.of_setState {state : Market} (memberships : Memberships)
    (hget : c.markets.get? market = some listing)
    (hmember : ∀ other, market ≠ other →
      (c.setMemberships memberships).isMember account other = c.isMember account other)
    (hworth : ∀ price, c.worthIn account market listing none price ≤
      ((c.setState market listing state).setMemberships memberships).worthIn account market
        { listing with state } none price)
    (hdebt : state.debtOf account ≤ listing.state.debtOf account) :
    c.Spares account prices ((c.setState market listing state).setMemberships memberships) := by
  have hget' := get?_setState_self c market listing state memberships
  refine ⟨rfl, known_setState state hget, ?_, ?_⟩
  · intro other
    by_cases heq : market = other
    · rw [← heq, worth_eq hget, worth_eq hget', at?_none]
      exact hworth _
    · exact (worth_setState_of_ne heq (hmember other heq)).ge
  · intro other
    by_cases heq : market = other
    · rw [← heq, burden_eq hget, burden_eq hget', at?_none, burdenIn_none, burdenIn_none]
      exact Nat.div_le_div_right (Nat.mul_le_mul_left _ hdebt)
    · exact (burden_setState_of_ne heq).le

theorem Performs.spares {call : Market.Call} (hperforms : c.Performs market call c')
    (hc : c.Sound) (hcall : ¬call.Debits account) : c.Spares account prices c' := by
  obtain ⟨listing, state, events, hlisted, hperform, rfl⟩ := hperforms
  have hconsistent := (hc.reachable_of_listed hlisted).consistent
  have hspares := (Market.change_of_perform hperform).spares hconsistent hcall
  exact .of_setState c.memberships (listed?_eq_some.mp hlisted).1 (fun _ _ => rfl)
    (fun _ => worthIn_le id rfl hspares.collateral hspares.rate) hspares.debt

/-! ## Memberships -/

theorem Spares.setMemberships {memberships : Memberships}
    (hmember : ∀ market, c.isMember account market = true →
      (c.setMemberships memberships).isMember account market = true) :
    c.Spares account prices (c.setMemberships memberships) := by
  refine ⟨rfl, rfl, ?_, ?_⟩
  · intro market
    cases hget : c.markets.get? market with
    | none =>
        rw [Controller.worth, hget]
        exact Nat.zero_le _
    | some listing =>
        have hget' : (c.setMemberships memberships).markets.get? market = some listing := hget
        rw [worth_eq hget, worth_eq hget']
        refine worthIn_le ?_ rfl (Nat.le_refl _) fun _ => Nat.le_refl _
        rintro ⟨hcredit, hlisted, hmember' | hentering⟩
        · exact ⟨hcredit, hlisted, .inl (hmember market hmember')⟩
        · cases hentering
  · intro market
    rw [burden_none, burden_none]
    exact Nat.le_refl _

/-- Entering a market is at nobody's expense. -/
theorem Spares.enter (c : Controller) (account entrant : AccountId) (prices : Prices)
    (market : MarketId) :
    c.Spares account prices (c.setMemberships (c.memberships.enter entrant market)) :=
  .setMemberships fun _ hmember => isMember_enter.mpr (.inl hmember)

/-- Leaving a market is at nobody else's expense. -/
theorem Spares.leave (c : Controller) (prices : Prices) (market : MarketId)
    {leaver : AccountId} (hne : leaver ≠ account) :
    c.Spares account prices (c.setMemberships (c.memberships.leave leaver market)) :=
  .setMemberships fun _ hmember => isMember_leave.mpr ⟨hmember, fun heq => hne heq.1⟩

theorem Performs.memberships_eq {call : Market.Call} (hperforms : c.Performs market call c') :
    c'.memberships = c.memberships := by
  obtain ⟨listing, state, events, -, -, rfl⟩ := hperforms
  rfl

/-! ## Dealings -/

/-- A sound controller that an account was spared on the way to. -/
structure Spared (c₀ : Controller) (account : AccountId) (prices : Prices) (c : Controller) :
    Prop where
  sound : c.Sound
  spares : c₀.Spares account prices c

theorem Spared.performs {call : Market.Call} (hc : c₀.Spared account prices c)
    (hperforms : c.Performs market call c') (hcall : ¬call.Debits account) :
    c₀.Spared account prices c' :=
  ⟨hperforms.sound hc.sound, hc.spares.trans (hperforms.spares hc.sound hcall)⟩

theorem Spared.setMemberships {memberships : Memberships} (hc : c₀.Spared account prices c)
    (hmemberships : c.Spares account prices (c.setMemberships memberships)) :
    c₀.Spared account prices (c.setMemberships memberships) :=
  ⟨hc.sound.of_markets_eq rfl, hc.spares.trans hmemberships⟩

end Controller

theorem Operation.keeps_spared_enterMarket {entrant : AccountId} :
    (enterMarket entrant market).Keeps (c₀.Spared account prices) := by
  refine atomic_enterMarket.keeps ?_
  intro c events c' hc hrun
  rcases performs_of_enterMarket hrun with rfl | ⟨-, c₁, hregister, rfl⟩
  · exact hc
  · rw [← hregister.memberships_eq]
    exact (hc.performs hregister id).setMemberships (.enter ..)

/-- The account at whose expense a dealing is. -/
def Dealing.debited? : Dealing → Option AccountId
  | .redeem redeemer .. => some redeemer
  | .redeemUnderlying redeemer .. => some redeemer
  | .borrow borrower .. => some borrower
  | .transfer source .. => some source
  | .leaveMarket account .. => some account
  | .liquidate _ borrower .. => some borrower
  | _ => none

/-- Whether it succeeds or fails, a dealing spares everyone but the debited. -/
theorem Dealing.keeps_spared {dealing : Dealing} (haccount : dealing.debited? ≠ some account) :
    dealing.operation.Keeps (c₀.Spared account prices) := by
  have hne : ∀ debited, dealing.debited? = some debited → debited ≠ account := by
    rintro debited hdebited rfl
    exact haccount hdebited
  cases dealing with
  | mint =>
      refine (atomic_mint.keeps ?_).silently
      intro c _ c' hc hrun
      exact hc.performs (performs_of_mint hrun) id
  | redeem =>
      refine (atomic_redeem.keeps ?_).silently
      intro c _ c' hc hrun
      exact hc.performs (performs_of_redeem hrun) (hne _ rfl)
  | redeemUnderlying =>
      refine (atomic_redeemUnderlying.keeps ?_).silently
      intro c _ c' hc hrun
      exact hc.performs (performs_of_redeemUnderlying hrun) (hne _ rfl)
  | borrow =>
      refine (atomic_borrow.keeps ?_).silently
      intro c _ c' hc hrun
      rcases performs_of_borrow hrun with hborrow | ⟨-, c₁, c₂, hregister, hborrow, rfl⟩
      · exact hc.performs hborrow (hne _ rfl)
      · rw [← hregister.memberships_eq, ← hborrow.memberships_eq]
        exact ((hc.performs hregister id).performs hborrow (hne _ rfl)).setMemberships (.enter ..)
  | repay =>
      refine (atomic_repay.keeps ?_).silently
      intro c _ c' hc hrun
      exact hc.performs (performs_of_repay hrun) id
  | transfer =>
      refine (atomic_transfer.keeps ?_).silently
      intro c _ c' hc hrun
      exact hc.performs (performs_of_transfer hrun) (hne _ rfl)
  | flashloan =>
      refine (atomic_flashloan.keeps ?_).silently
      intro c _ c' hc hrun
      exact hc.performs (performs_of_flashloan hrun) id
  | enterMarket => exact keeps_spared_enterMarket.silently
  | enterMarkets =>
      exact (keeps_enterMarkets fun _ => keeps_spared_enterMarket).silently
  | leaveMarket =>
      refine (atomic_leaveMarket.keeps ?_).silently
      intro c _ c' hc hrun
      rcases performs_of_leaveMarket hrun with rfl | ⟨c₁, hunregister, rfl⟩
      · exact hc
      · rw [← hunregister.memberships_eq]
        exact (hc.performs hunregister (hne _ rfl)).setMemberships (.leave _ _ _ (hne _ rfl))
  | liquidate =>
      refine (atomic_liquidate.keeps ?_).silently
      intro c _ c' hc hrun
      obtain ⟨c₁, hrepay, hseize⟩ := performs_of_liquidate hrun
      exact (hc.performs hrepay id).performs hseize (hne _ rfl)
  | addReserves =>
      refine ((atomic_tryOnMarket _).keeps ?_).silently
      intro c _ c' hc hrun
      exact hc.performs (performs_of_addReserves hrun) id

/-- A dealing neither lowers the liquidity of another account nor raises its
shortfall. -/
theorem Controller.Reachable.others_spared {dealing : Dealing} {u : Unit}
    {before after : Liquidity} (hc : c.Reachable) (hrun : dealing.operation.runOn c = (.ok u, c'))
    (haccount : dealing.debited? ≠ some account)
    (hbefore : c.liquidity account prices = .ok before)
    (hafter : c'.liquidity account prices = .ok after) :
    before.net ≤ after.net ∧ after.shortfall ≤ before.shortfall := by
  have hspared := Dealing.keeps_spared haccount c ⟨hc.sound, Spares.refl account prices c⟩
  rw [hrun] at hspared
  change c.Spared account prices c' at hspared
  have havailable := hspared.spares.available_le
  have hrequired := hspared.spares.required_le
  constructor
  · rw [net_eq hbefore, net_eq hafter]
    omega
  · rw [Amount.le_def, (liquidityAfter_eq_ok hbefore).2, (liquidityAfter_eq_ok hafter).2]
    omega

/-- A flashloan of what the large supplier of the sample supplied. -/
def Controller.sampleFlashloan : Dealing :=
  .flashloan ⟨"carol"⟩ ⟨"jUSD"⟩ (.ofUInt64 1_000_000_000) (.ofUInt64 1_000_800_000) 0

/-- The fee of a flashloan is to the good of the suppliers. -/
theorem Controller.sample_others_spared :
    ∃ before after, sampleFlashloan.operation.runOn sample =
        (.ok (), sample.after (.deal sampleFlashloan)) ∧
      sample.liquidity ⟨"bob"⟩ samplePrices = .ok before ∧ before.net = 800_000_000 ∧
      (sample.after (.deal sampleFlashloan)).liquidity ⟨"bob"⟩ samplePrices = .ok after ∧
      after.net = 800_639_999 ∧ before.net ≤ after.net := by
  have hrun := @runOn_eq_after sample sampleFlashloan (by decide +kernel)
  have hbefore : sample.liquidity ⟨"bob"⟩ samplePrices = .ok ⟨⟨800_000_000, by decide⟩, 0⟩ := by
    decide +kernel
  have hafter : (sample.after (.deal sampleFlashloan)).liquidity ⟨"bob"⟩ samplePrices =
      .ok ⟨⟨800_639_999, by decide⟩, 0⟩ := by
    decide +kernel
  have hspared := sample_reachable.others_spared hrun (by decide) hbefore hafter
  exact ⟨_, _, hrun, hbefore, rfl, hafter, rfl, hspared.1⟩

/-- Also dealings one after the other, some of which may fail, spare everyone
at whose expense none of them is. -/
theorem Controller.Reachable.others_spared_foldl {dealings : List Dealing}
    {before after : Liquidity} (hc : c.Reachable)
    (haccount : ∀ dealing ∈ dealings, dealing.debited? ≠ some account)
    (hbefore : c.liquidity account prices = .ok before)
    (hafter : ((dealings.map Call.deal).foldl Controller.after c).liquidity account prices =
      .ok after) : before.net ≤ after.net := by
  -- the induction is on the dealings still to come, from wherever they start
  have hspared : ∀ c₁, c.Spared account prices c₁ →
      c.Spared account prices ((dealings.map Call.deal).foldl Controller.after c₁) := by
    clear hafter
    induction dealings with
    | nil =>
        intro c₁ hc₁
        exact hc₁
    | cons dealing rest ih =>
        intro c₁ hc₁
        obtain ⟨hfirst, hrest⟩ := List.forall_mem_cons.mp haccount
        exact ih hrest (c₁.after (.deal dealing)) (Dealing.keeps_spared hfirst c₁ hc₁)
  have hend := (hspared c ⟨hc.sound, Spares.refl account prices c⟩).spares
  have havailable := hend.available_le
  have hrequired := hend.required_le
  rw [net_eq hbefore, net_eq hafter]
  omega

end MoneyMarket
