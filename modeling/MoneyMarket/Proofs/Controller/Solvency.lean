import MoneyMarket.Proofs.Controller.Approach
import MoneyMarket.Proofs.Controller.Realization

/-! # Dealings leave solvent

An account that takes something out of the markets is judged before it does:
its liquidity is computed for a hypothetical change of one market, which must
leave nothing lacking. So what the dealing comes to leaves no more than one
unit lacking, or no more than was lacking before.
-/

namespace MoneyMarket

open Controller Operation

variable {c c' : Controller} {account : AccountId} {market : MarketId} {prices : Prices}
  {listing : Listing}

namespace Controller

/-! ## Gates -/

theorem borrowVerdict_eq_allow {amount : Amount} {entering : Option Amount}
    (hverdict : c.borrowVerdict market account amount entering prices = .ok .allow) :
    ∃ l, c.liquidityAfter account
        (some { market, borrowAmount := amount, enteringCollateral := entering }) prices = .ok l ∧
      l.shortfall = 0 := by
  obtain ⟨_, _, l, -, -, -, -, hsolvent⟩ := borrowVerdict_eq_allow_iff.mp hverdict
  exact ⟨l, hsolvent⟩

/-- A gate let a change pass that leads from one controller to another: there
was nothing to judge, or the change was found to leave nothing lacking. -/
structure Judged (account : AccountId) (prices : Prices) (change : Hypothetical)
    (c c' : Controller) : Prop where
  realizes : c.Realizes account prices change c'
  allowed : c.Spares account prices c' ∨
    ∃ l, c.liquidityAfter account (some change) prices = .ok l ∧ l.shortfall = 0

/-- Taking tokens out of the collateral of an account. -/
theorem Judged.of_taking {state : Market} {call : Market.Call} {removed : Amount}
    (hlisted : c.listed? market = some listing) (hsound : listing.state.Consistent)
    (hchange : Market.Change listing.state call state)
    (hcollateral : (listing.state.collateralTokens account).toNat =
      (state.collateralTokens account).toNat + removed.toNat)
    (hdebt : state.debtOf account = listing.state.debtOf account)
    (hverdict : c.redeemVerdict market account removed prices = .ok .allow) :
    c.Judged account prices { market, redeemTokens := removed }
      (c.setState market listing state) := by
  have hget := (listed?_eq_some.mp hlisted).1
  have hrate : (state.collateralTokens account).toNat ≠ 0 → listing.state.rate ≤ state.rate :=
    hchange.rate_le_of_collateral hsound
  refine ⟨.of_made c.memberships rfl hget (fun _ _ => rfl)
    ⟨rfl, Iff.rfl, hcollateral, hdebt, hrate, .inl rfl⟩, ?_⟩
  rcases (redeemVerdict_eq_allow_iff.mp hverdict).2 with hnothing | hsolvent
  · refine .inl (.of_setState c.memberships hget (fun _ _ => rfl) ?_ hdebt.le)
    intro price
    rcases hnothing with hmember | hzero
    · rw [worthIn_none, if_neg (not_counts_of_not_member hmember)]
      exact Nat.zero_le _
    · rw [hzero, Amount.toNat_zero, Nat.add_zero] at hcollateral
      exact worthIn_le id rfl hcollateral.le (hcollateral ▸ hrate)
  · exact .inr hsolvent

/-- Taking all collateral of an account that leaves, and owes nothing. -/
theorem Judged.of_leaving {state : Market}
    (hlisted : c.listed? market = some listing)
    (hdebt : state.debtOf account = listing.state.debtOf account)
    (hverdict : c.redeemVerdict market account (listing.state.collateralTokens account) prices =
      .ok .allow) :
    c.Judged account prices
      { market, redeemTokens := listing.state.collateralTokens account }
      ((c.setState market listing state).setMemberships (c.memberships.leave account market)) := by
  have hget := (listed?_eq_some.mp hlisted).1
  have hleft : (c.setMemberships (c.memberships.leave account market)).isMember account market =
      false := by
    rw [← Bool.not_eq_true, isMember_leave]
    exact fun hafter => hafter.2 ⟨rfl, rfl⟩
  refine ⟨.of_not_counts rfl hget (fun _ hne => isMember_leave_of_ne hne)
    (not_counts_of_not_member hleft) hdebt, ?_⟩
  rcases (redeemVerdict_eq_allow_iff.mp hverdict).2 with hnothing | hsolvent
  · refine .inl (.of_setState _ hget (fun _ hne => isMember_leave_of_ne hne) ?_ hdebt.le)
    intro price
    -- either the collateral did not count, or there was none
    rw [worthIn_none]
    split
    next hcounts =>
      rcases hnothing with hmember | hzero
      · exact absurd hcounts (not_counts_of_not_member hmember)
      · rw [hzero, Amount.toNat_zero, Nat.mul_zero, Nat.zero_div]
        exact Nat.zero_le _
    next => exact Nat.zero_le _
  · exact .inr hsolvent

/-- Borrowing, with the collateral counted that the account has then. -/
theorem Judged.of_borrowing {state : Market} {amount : Amount} {entering : Option Amount}
    (memberships : Memberships)
    (hlisted : c.listed? market = some listing)
    (hmember : ∀ other, market ≠ other →
      (c.setMemberships memberships).isMember account other = c.isMember account other)
    (hcounts : c.isMember account market = true ∨ entering.isSome = true ↔
      (c.setMemberships memberships).isMember account market = true)
    (hcollateral : entering.getD (listing.state.collateralTokens account) =
      state.collateralTokens account)
    (hdebt : state.debtOf account = listing.state.debtOf account + amount.toNat)
    (hrate : (state.collateralTokens account).toNat ≠ 0 → listing.state.rate ≤ state.rate)
    (hverdict : c.borrowVerdict market account amount entering prices = .ok .allow) :
    c.Judged account prices
      { market, borrowAmount := amount, enteringCollateral := entering }
      ((c.setState market listing state).setMemberships memberships) := by
  refine ⟨.of_made memberships rfl (listed?_eq_some.mp hlisted).1 hmember
    ⟨rfl, ?_, congrArg Amount.toNat hcollateral, hdebt, hrate, .inr rfl⟩,
    .inr (borrowVerdict_eq_allow hverdict)⟩
  constructor
  · rintro ⟨hcredit, hlisted, hbefore⟩
    exact ⟨hcredit, hlisted, .inl (hcounts.mp hbefore)⟩
  · rintro ⟨hcredit, hlisted, hafter | hentering⟩
    · exact ⟨hcredit, hlisted, hcounts.mpr hafter⟩
    · cases hentering

/-- A redemption is judged by the collateral that it takes. -/
theorem Judged.of_redemption {plan : RedeemPlan} {call : Market.Call} (hc : c.Sound)
    (hlisted : c.listed? market = some listing) (hplan : plan.Fits listing.state account)
    (hchange : Market.Change listing.state call (listing.state.settleRedeem plan).1)
    (hverdict : c.redeemVerdict market account plan.collateralTokensRemoved prices = .ok .allow) :
    c.Judged account prices { market, redeemTokens := plan.collateralTokensRemoved }
      (c.setState market listing (listing.state.settleRedeem plan).1) := by
  have hcollateral := (Market.collateralTokens_settleRedeem hplan).2 account
  rw [if_pos rfl] at hcollateral
  refine .of_taking hlisted (hc.reachable_of_listed hlisted).consistent hchange hcollateral ?_
    hverdict
  rw [Market.settleRedeem_fst]
  exact Market.debtOf_congr rfl rfl account

/-- So is a transfer, for its source. -/
theorem Judged.of_transfer {plan : MovePlan} {target : AccountId} {tokens : Amount}
    {targetIsMember : Bool} (hc : c.Sound) (hlisted : c.listed? market = some listing)
    (hplan : listing.state.planTransfer account target tokens targetIsMember = .ok plan)
    (hverdict : c.transferVerdict market account plan.collateralTokensRemoved prices =
      .ok .allow) :
    c.Judged account prices { market, redeemTokens := plan.collateralTokensRemoved }
      (c.setState market listing (listing.state.settleMove plan).1) := by
  obtain ⟨hfits, hregistrations⟩ := Market.planMove_fits hplan
  have hchange := Market.Change.transferred hfits hregistrations
  have hsource := Market.collateralTokens_source_of_transfer hfits hregistrations
  unfold transferVerdict at hverdict
  split at hverdict
  next => cases hverdict
  next =>
    refine .of_taking hlisted (hc.reachable_of_listed hlisted).consistent hchange hsource ?_
      hverdict
    rw [Market.settleMove_fst]
    exact Market.debtOf_congr rfl rfl account

/-- A member borrows on the collateral that it has. -/
theorem Judged.of_member_borrow {plan : BorrowPlan} {amount : Amount} {now : UInt64}
    (hc : c.Sound) (hlisted : c.listed? market = some listing)
    (hmember : c.isMember account market = true)
    (hplan : listing.state.planBorrow account amount now = .ok plan)
    (hverdict : c.borrowVerdict market account amount none prices = .ok .allow) :
    c.Judged account prices { market, borrowAmount := amount }
      (c.setState market listing (listing.state.settleBorrow plan).1) := by
  have hreachable := hc.reachable_of_listed hlisted
  have hfits := Market.planBorrow_fits hplan
  have hchange : Market.Change listing.state (.borrow account amount now) _ := .borrowed hfits
  have hdebt := Market.debtOf_settleBorrow hreachable.borrowIndex_pos hfits
  exact .of_borrowing c.memberships hlisted (fun _ _ => rfl)
    (iff_of_true (.inl hmember) hmember) rfl hdebt
    (hchange.rate_le_of_collateral hreachable.consistent) hverdict

/-- Who enters with a borrow borrows on the collateral that it then registers. -/
theorem Judged.of_entering_borrow {plan : BorrowPlan} {amount : Amount} {now : UInt64}
    {state : Market} {registered : List Event}
    (hc : c.Sound) (hlisted : c.listed? market = some listing)
    (hregister : listing.state.perform (.register account) = .ok (state, registered))
    (hplan : listing.state.planBorrow account amount now = .ok plan)
    (hverdict : c.borrowVerdict market account amount (some (state.collateralTokens account))
      prices = .ok .allow) :
    c.Judged account prices
      { market, borrowAmount := amount, enteringCollateral := state.collateralTokens account }
      ((c.setState market listing (state.settleBorrow plan).1).setMemberships
        (c.memberships.enter account market)) := by
  have hreachable := hc.reachable_of_listed hlisted
  have hreachable' := hreachable.performed hregister
  have hentered := Market.change_of_perform hregister
  rw [← Operation.planBorrow_of_register hregister] at hplan
  have hfits := Market.planBorrow_fits hplan
  have hchange : Market.Change state (.borrow account amount now) _ := .borrowed hfits
  refine .of_borrowing _ hlisted (fun _ hne => isMember_enter_of_ne hne)
    (iff_of_true (.inr rfl) (isMember_enter.mpr (.inr ⟨rfl, rfl⟩))) rfl ?_ ?_ hverdict
  · rw [Market.debtOf_settleBorrow hreachable'.borrowIndex_pos hfits,
      hentered.debtOf_of_registration (.inl rfl)]
  · intro hne
    -- borrowing leaves the collateral that registering brought
    have hregistered : (state.collateralTokens account).toNat ≠ 0 := hne
    exact (hentered.rate_le_of_collateral hreachable.consistent hregistered).trans
      (hchange.rate_le_of_collateral hreachable'.consistent hne)

end Controller

/-! ## Dealings -/

/-- Who has to be left solvent by a dealing, and at which prices. -/
def Dealing.judged? : Dealing → Option (AccountId × Prices)
  | .redeem redeemer _ _ _ prices => some (redeemer, prices)
  | .redeemUnderlying redeemer _ _ _ prices => some (redeemer, prices)
  | .borrow borrower _ _ _ prices => some (borrower, prices)
  | .transfer source _ _ _ prices => some (source, prices)
  | .leaveMarket account _ prices => some (account, prices)
  | _ => none

/-- Whoever takes something out comes to a gate and is judged there by what the
dealing then leads to. Only who leaves a market without being a member comes to
no gate, and to nothing else. -/
theorem Dealing.judged {dealing : Dealing} {u : Unit} (hc : c.Sound)
    (hrun : dealing.operation.runOn c = (.ok u, c'))
    (hjudged : dealing.judged? = some (account, prices)) :
    dealing.approach.runOn c = (.ok none, c) ∧ c' = c ∨
      ∃ gate, dealing.ComesTo gate c ∧ gate.account = account ∧ gate.prices = prices ∧
        c.Judged account prices gate.change c' := by
  cases dealing with
  | redeem redeemer market tokens now =>
      cases hjudged
      obtain ⟨events, hrun⟩ := runOn_silently_eq_ok.mp hrun
      obtain ⟨listing, plan, hlisted, hplan, hverdict, rfl⟩ := redeem_eq_ok hrun
      have hfits := Market.planRedeem_fits hplan
      have hchange : Market.Change listing.state (.redeem account tokens now) _ := .redeemed hfits
      exact .inr ⟨_, redeem_comesTo hlisted hplan, rfl, rfl,
        .of_redemption hc hlisted hfits hchange hverdict⟩
  | redeemUnderlying redeemer market amount now =>
      cases hjudged
      obtain ⟨events, hrun⟩ := runOn_silently_eq_ok.mp hrun
      obtain ⟨listing, plan, hlisted, hplan, hverdict, rfl⟩ := redeemUnderlying_eq_ok hrun
      have hfits := Market.planRedeemUnderlying_fits hplan
      have hchange : Market.Change listing.state (.redeemUnderlying account amount now) _ :=
        .underlyingRedeemed hfits
      exact .inr ⟨_, redeemUnderlying_comesTo hlisted hplan, rfl, rfl,
        .of_redemption hc hlisted hfits hchange hverdict⟩
  | transfer =>
      cases hjudged
      obtain ⟨events, hrun⟩ := runOn_silently_eq_ok.mp hrun
      obtain ⟨listing, plan, hlisted, hplan, hverdict, rfl⟩ := transfer_eq_ok hrun
      exact .inr ⟨_, transfer_comesTo hlisted hplan, rfl, rfl,
        .of_transfer hc hlisted hplan hverdict⟩
  | leaveMarket =>
      cases hjudged
      obtain ⟨events, hrun⟩ := runOn_silently_eq_ok.mp hrun
      obtain ⟨listing, hlisted, ⟨hmember, rfl⟩ |
        ⟨hmember, hdebt, hverdict, state, unregistered, hunregister, rfl⟩⟩ := leaveMarket_eq_ok hrun
      · exact .inl ⟨approach_leaveMarket_of_not_member hlisted hmember, rfl⟩
      · have hkept : state.debtOf account = listing.state.debtOf account :=
          (Market.change_of_perform hunregister).debtOf_of_registration (.inr rfl)
        obtain ⟨plan, hplan, -⟩ := Market.perform_unregister_eq_ok.mp hunregister
        exact .inr ⟨_, leaveMarket_comesTo hlisted hmember hdebt hplan, rfl, rfl,
          .of_leaving hlisted hkept hverdict⟩
  | borrow =>
      cases hjudged
      obtain ⟨events, hrun⟩ := runOn_silently_eq_ok.mp hrun
      obtain ⟨listing, plan, hlisted, hplan, ⟨hmember, hverdict, rfl⟩ |
        ⟨hmember, state, registered, hregister, hverdict, rfl⟩⟩ := borrow_eq_ok hrun
      · exact .inr ⟨_, borrow_comesTo_of_member hlisted hmember hplan, rfl, rfl,
          .of_member_borrow hc hlisted hmember hplan hverdict⟩
      · exact .inr ⟨_, borrow_comesTo_of_register hlisted hmember hregister hplan, rfl, rfl,
          .of_entering_borrow hc hlisted hregister hplan hverdict⟩
  | mint | repay | flashloan | enterMarket | enterMarkets | liquidate | addReserves =>
      cases hjudged

/-- No dealing that an account is judged for gets it into a shortfall of more
than one unit, or into a larger one than it is in. The gate of the dealing finds
nothing to judge or nothing lacking. Apart from what the remaining collateral
gains when the exchange rate changes, the liquidity that it judges by is the one
that the dealing leads to, or at most one unit more. -/
theorem Controller.Reachable.shortfall_le_max {dealing : Dealing} {u : Unit}
    {before after : Liquidity} (hc : c.Reachable) (hrun : dealing.operation.runOn c = (.ok u, c'))
    (hjudged : dealing.judged? = some (account, prices))
    (hbefore : c.liquidity account prices = .ok before)
    (hafter : c'.liquidity account prices = .ok after) :
    after.shortfall.toNat ≤ max before.shortfall.toNat 1 ∧
      (dealing.approach.runOn c = (.ok none, c) ∧ c' = c ∨
        ∃ gate, dealing.Passes gate c c' ∧ gate.account = account ∧ gate.prices = prices ∧
          (gate.Idle c ∨ ∃ judged, gate.liquidity c = .ok judged ∧ judged.shortfall = 0) ∧
          ∀ judged, gate.liquidity c = .ok judged →
            judged.net + c.gain c' account prices gate.change.market ≤ after.net + 1 ∧
            after.net ≤ judged.net + c.gain c' account prices gate.change.market ∧
            (c'.rate? gate.change.market = c.rate? gate.change.market →
              c.gain c' account prices gate.change.market = 0)) := by
  rcases Dealing.judged hc.sound hrun hjudged with ⟨hnone, rfl⟩ |
    ⟨gate, hgate, rfl, rfl, hrealizes, hallowed⟩
  · cases hbefore.symm.trans hafter
    exact ⟨Nat.le_max_left _ _, .inl ⟨hnone, rfl⟩⟩
  have hrequired := hrealizes.available_le
  have havailable := hrealizes.le_available
  obtain ⟨-, hshort⟩ := liquidityAfter_eq_ok hafter
  refine ⟨?_, .inr ⟨gate, hgate.passes hrun, rfl, rfl, ?_⟩⟩
  · -- there was nothing to judge, or nothing lacked when it was judged
    rcases hallowed with hspares | ⟨judged, hliquidity, hsolvent⟩
    · have havailable_le := hspares.available_le
      have hrequired_le := hspares.required_le
      obtain ⟨-, hshort_before⟩ := liquidityAfter_eq_ok hbefore
      omega
    · obtain ⟨-, hshort_judged⟩ := liquidityAfter_eq_ok hliquidity
      rw [hsolvent, Amount.toNat_zero] at hshort_judged
      omega
  · obtain ⟨-, -, -, hallow, -⟩ := hgate.passes hrun
    refine ⟨Gate.solvent_of_allow hallow, fun judged hliquidity => ?_⟩
    rw [net_eq hliquidity, net_eq hafter]
    exact ⟨by omega, by omega, hrealizes.unmoved⟩

/-- The small supplier of the sample redeems one of the tokens that it needs. -/
def Controller.sampleRedemption : Dealing :=
  .redeem ⟨"alice"⟩ ⟨"jUSD"⟩ 1 0 samplePrices

/-- A shortfall of one unit does come about. -/
theorem Controller.sample_shortfall_le_max :
    ∃ before after, sampleRedemption.operation.runOn sample =
        (.ok (), sample.after (.deal sampleRedemption)) ∧
      sample.liquidity ⟨"alice"⟩ samplePrices = .ok before ∧ before.shortfall = 0 ∧
      (sample.after (.deal sampleRedemption)).liquidity ⟨"alice"⟩ samplePrices = .ok after ∧
      after.shortfall = 1 ∧ after.shortfall.toNat ≤ max before.shortfall.toNat 1 ∧
      ∃ gate, sampleRedemption.Passes gate sample (sample.after (.deal sampleRedemption)) ∧
        gate.account = ⟨"alice"⟩ := by
  have hrun := @runOn_eq_after sample sampleRedemption (by decide +kernel)
  have hbefore : sample.liquidity ⟨"alice"⟩ samplePrices = .ok ⟨0, 0⟩ := by decide +kernel
  have hafter : (sample.after (.deal sampleRedemption)).liquidity ⟨"alice"⟩ samplePrices =
      .ok ⟨0, 1⟩ := by
    decide +kernel
  obtain ⟨hshort, ⟨-, hsame⟩ | ⟨gate, hpasses, haccount, -⟩⟩ :=
    sample_reachable.shortfall_le_max hrun rfl hbefore hafter
  · rw [hsame] at hafter
    cases hbefore.symm.trans hafter
  · exact ⟨_, _, hrun, hbefore, rfl, hafter, rfl, hshort, gate, hpasses, haccount⟩

/-- A market of tokens worth a little less than five thirds. -/
def Controller.unevenMarket : Market :=
  { sampleMarket with
    kind := .vanilla
    initialExchangeRate := ⟨.ofUInt64 1_666_666_666_666_666_666⟩ }

theorem Controller.unevenMarket_created : unevenMarket.Created := by
  have hmake : Market.make ⟨"jUSD"⟩ .vanilla Market.sample.rateModel
      ⟨.ofUInt64 1_666_666_666_666_666_666⟩ 0 = .ok unevenMarket := by rfl
  exact .make hmake

def Controller.unevenPrices : Prices :=
  Prices.empty.insert ⟨⟨"jUSD"⟩, ⟨⟨1000 * 10 ^ 18, by decide⟩⟩, .ofSeconds 0, "feed"⟩

/-- The only supplier of the market, with three tokens. -/
def Controller.unevenSample : Controller :=
  [.listMarket ⟨"admin"⟩ unevenMarket unevenMarket_created,
    .setCollateralFactor ⟨"admin"⟩ ⟨"jUSD"⟩ ⟨.ofUInt64 900_000_000_000_000_000⟩ unevenPrices,
    .deal (.mint ⟨"alice"⟩ ⟨"jUSD"⟩ (.ofUInt64 5) 0),
    .deal (.enterMarket ⟨"alice"⟩ ⟨"jUSD"⟩)].foldl after sampleMade

def Controller.unevenRedemption : Dealing := .redeem ⟨"alice"⟩ ⟨"jUSD"⟩ 1 0 unevenPrices

/-- One of the three tokens takes one of the five units with it, so that the
other two are worth two units each, and a fifth more than the gate has judged. -/
theorem Controller.unevenSample_gains :
    unevenSample.Reachable ∧
      unevenSample.liquidity ⟨"alice"⟩ unevenPrices = .ok ⟨.ofUInt64 4499, 0⟩ ∧
      unevenRedemption.Passes (.redeem ⟨"jUSD"⟩ ⟨"alice"⟩ 1 unevenPrices) unevenSample
        (unevenSample.after (.deal unevenRedemption)) ∧
      Gate.liquidity unevenSample (.redeem ⟨"jUSD"⟩ ⟨"alice"⟩ 1 unevenPrices) =
        .ok ⟨.ofUInt64 3000, 0⟩ ∧
      (unevenSample.after (.deal unevenRedemption)).liquidity ⟨"alice"⟩ unevenPrices =
        .ok ⟨.ofUInt64 3600, 0⟩ := by
  have hrun := @runOn_eq_after unevenSample unevenRedemption (by decide +kernel)
  have htaken : (unevenSample.listed? ⟨"jUSD"⟩).map (fun listing =>
      (listing.state.planRedeem ⟨"alice"⟩ 1 0).map (·.collateralTokensRemoved)) =
        some (.ok 1) := by
    decide +kernel
  refine ⟨(Reachable.made make_sampleMade).foldl _, by decide +kernel, ?_, by decide +kernel,
    by decide +kernel⟩
  obtain ⟨events, hredeem⟩ := runOn_silently_eq_ok.mp hrun
  obtain ⟨listing, plan, hlisted, hplan, -⟩ := redeem_eq_ok hredeem
  rw [hlisted, Option.map_some, hplan] at htaken
  have hone : plan.collateralTokensRemoved = 1 := Except.ok.inj (Option.some.inj htaken)
  rw [← hone]
  exact (Dealing.redeem_comesTo hlisted hplan).passes hrun

end MoneyMarket
