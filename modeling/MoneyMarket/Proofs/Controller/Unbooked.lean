import MoneyMarket.Proofs.Controller.Approach
import MoneyMarket.Proofs.Controller.Booking
import MoneyMarket.Proofs.Controller.Debts
import MoneyMarket.Proofs.Market.Freshness

/-! # Dealings on interest that is not booked

A gate reads the debts of an account in all its markets as of their last
accruals, and at most the market of the dealing has to be fresh. So a dealing
may pass that would be refused if the interest up to its time were booked. What
the account then lacks is no more than what its debts have grown by.
-/

namespace MoneyMarket

open Controller Market Operation

variable {c c' : Controller} {account : AccountId} {market : MarketId} {prices : Prices}
  {listing : Listing} {now : UInt64} {amount tokens : Amount}

/-! ## Gates -/

namespace Controller.Books

theorem redeemVerdict (hbooks : c.Books now c') (hc : c.Sound) (hc' : c'.Sound)
    (hlisted : c.listed? market = some listing)
    (hjudgeable : Hypothetical.Judgeable { market, redeemTokens := tokens } account now
      listing.state)
    (hverdict : c.redeemVerdict market account tokens prices = .ok .allow) :
    RefusedWithin (c.debtGrowth c' account prices + c.staleUnit market now)
      (c'.redeemVerdict market account tokens prices >>= Verdict.demand) := by
  obtain ⟨state, hlisted', -⟩ := hbooks.listed? hlisted
  have hisListed : c'.isListed market = true := by simp [isListed, hlisted']
  unfold Controller.redeemVerdict
  rw [hisListed, hbooks.isMember_eq]
  simp only [Bool.not_true, Bool.false_eq_true, if_false]
  split
  next => exact .passed
  next hjudged =>
    rcases (redeemVerdict_eq_allow_iff.mp hverdict).2 with hnothing | ⟨l, hl, hsolvent⟩
    · exact absurd (by simpa using hnothing) hjudged
    · have hget := (listed?_eq_some.mp hlisted).1
      simp only [bind_assoc, pure_bind]
      exact hbooks.solvency hc hc' hget hjudgeable hl hsolvent

theorem transferVerdict (hbooks : c.Books now c') (hc : c.Sound) (hc' : c'.Sound)
    (hlisted : c.listed? market = some listing)
    (hjudgeable : Hypothetical.Judgeable { market, redeemTokens := tokens } account now
      listing.state)
    (hverdict : c.transferVerdict market account tokens prices = .ok .allow) :
    RefusedWithin (c.debtGrowth c' account prices + c.staleUnit market now)
      (c'.transferVerdict market account tokens prices >>= Verdict.demand) := by
  have hpaused : c'.transferPaused = c.transferPaused := by rw [hbooks.rest]
  unfold Controller.transferVerdict at hverdict ⊢
  rw [hpaused]
  split at hverdict
  next => cases hverdict
  next hrunning =>
    rw [if_neg hrunning]
    exact hbooks.redeemVerdict hc hc' hlisted hjudgeable hverdict

/-- A borrow is judged in a fresh market. -/
theorem borrowVerdict {entering : Option Amount} (hbooks : c.Books now c') (hc : c.Sound)
    (hc' : c'.Sound) (hlisted : c.listed? market = some listing)
    (hfresh : listing.state.accrualTimestamp = now)
    (hverdict : c.borrowVerdict market account amount entering prices = .ok .allow) :
    RefusedWithin (c.debtGrowth c' account prices + c.staleUnit market now)
      (c'.borrowVerdict market account amount entering prices >>= Verdict.demand) := by
  obtain ⟨l, hl, hsolvent⟩ := borrowVerdict_eq_allow hverdict
  have hget := (listed?_eq_some.mp hlisted).1
  have hsolvency := hbooks.solvency hc hc' hget (.inl hfresh) hl hsolvent
  unfold Controller.borrowVerdict at hverdict ⊢
  rw [hlisted] at hverdict
  rw [hbooks.listed?_of_fresh hlisted hfresh]
  -- what comes before the liquidity is the same
  dsimp only at hverdict ⊢
  split at hverdict
  next => cases hverdict
  next hpaused =>
    rw [if_neg hpaused]
    simp only [bind_eq_ok] at hverdict
    obtain ⟨price, hprice, rejection, hcap, hverdict⟩ := hverdict
    cases rejection with
    | some rejection => cases hverdict
    | none =>
        rw [hprice, hcap]
        change RefusedWithin _ ((c'.liquidityAfter account _ prices >>= fun l' =>
          pure (solvencyVerdict l')) >>= Verdict.demand)
        rw [bind_assoc]
        exact hsolvency

end Controller.Books

/-! ## Dealings -/

/-- The market of a dealing that somebody has to be left solvent by. -/
def Dealing.judgedIn? : Dealing → Option MarketId
  | .redeem _ market .. | .redeemUnderlying _ market .. | .borrow _ market ..
  | .transfer _ _ market .. | .leaveMarket _ market _ => some market
  | _ => none

/-- On the second controller a dealing is refused at most for what the debts
have grown by, and for a unit where interest was booked in its market. -/
def Dealing.RefusedForGrowth (dealing : Dealing) (now : UInt64) (account : AccountId)
    (prices : Prices) (c c' : Controller) : Prop :=
  ∃ market listing, dealing.judgedIn? = some market ∧ c.listed? market = some listing ∧
    RefusedWithin (c.debtGrowth c' account prices + c.staleUnit market now)
      (dealing.operation.runOn c').1

namespace Dealing.RefusedForGrowth

variable {c₁ : Controller} {events : List Event}

theorem of_redeem (hbooks : c.Books now c') (hc : c.Sound) (hc' : c'.Sound)
    (hredeem : (Operation.redeem account market tokens now prices).runOn c = (.ok events, c₁)) :
    (Dealing.redeem account market tokens now prices).RefusedForGrowth now account prices c c' := by
  obtain ⟨listing, plan, hlisted, hplan, hverdict, -⟩ := redeem_eq_ok hredeem
  have hfresh := accrualTimestamp_eq_of_requireFresh hplan
  refine ⟨market, listing, rfl, hlisted, ?_⟩
  rw [(redeem_comesTo (hbooks.listed?_of_fresh hlisted hfresh) hplan).runOn_fst]
  exact hbooks.redeemVerdict hc hc' hlisted (.inl hfresh) hverdict

theorem of_redeemUnderlying (hbooks : c.Books now c') (hc : c.Sound) (hc' : c'.Sound)
    (hredeem : (Operation.redeemUnderlying account market amount now prices).runOn c =
      (.ok events, c₁)) :
    (Dealing.redeemUnderlying account market amount now prices).RefusedForGrowth now account
      prices c c' := by
  obtain ⟨listing, plan, hlisted, hplan, hverdict, -⟩ := redeemUnderlying_eq_ok hredeem
  have hfresh := accrualTimestamp_eq_of_requireFresh hplan
  refine ⟨market, listing, rfl, hlisted, ?_⟩
  rw [(redeemUnderlying_comesTo (hbooks.listed?_of_fresh hlisted hfresh) hplan).runOn_fst]
  exact hbooks.redeemVerdict hc hc' hlisted (.inl hfresh) hverdict

/-- A transfer is planned in a stale market as in a fresh one. -/
theorem of_transfer {target : AccountId} (hbooks : c.Books now c') (hc : c.Sound) (hc' : c'.Sound)
    (htransfer : (Operation.transfer account target market tokens prices).runOn c =
      (.ok events, c₁)) :
    (Dealing.transfer account target market tokens prices).RefusedForGrowth now account prices
      c c' := by
  obtain ⟨listing, plan, hlisted, hplan, hverdict, -⟩ := transfer_eq_ok htransfer
  obtain ⟨state, hlisted', hbooked⟩ := hbooks.listed? hlisted
  have htakes : plan.collateralTokensRemoved ≤ listing.state.collateralTokens account := by
    obtain ⟨hfits, hregistrations⟩ := planMove_fits hplan
    rw [Amount.le_def, collateralTokens_source_of_transfer hfits hregistrations]
    exact Nat.le_add_left ..
  have hplan' : state.planTransfer account target tokens (c'.isMember target market) =
      .ok plan := by
    rw [hbooks.isMember_eq, hbooked.planTransfer_eq, hplan]
  refine ⟨market, listing, rfl, hlisted, ?_⟩
  rw [(transfer_comesTo hlisted' hplan').runOn_fst]
  exact hbooks.transferVerdict hc hc' hlisted (.inr ⟨rfl, htakes⟩) hverdict

theorem of_leaveMarket (hbooks : c.Books now c') (hc : c.Sound) (hc' : c'.Sound)
    (hleave : (Operation.leaveMarket account market prices).runOn c = (.ok events, c₁)) :
    (Dealing.leaveMarket account market prices).RefusedForGrowth now account prices c c' := by
  obtain ⟨listing, hlisted, hleave⟩ := leaveMarket_eq_ok hleave
  obtain ⟨state, hlisted', hbooked⟩ := hbooks.listed? hlisted
  refine ⟨market, listing, rfl, hlisted, ?_⟩
  rcases hleave with ⟨hmember, -⟩ | ⟨hmember, hdebt, hverdict, _, _, hunregister, -⟩
  · have hmember' := (hbooks.isMember_eq ..).trans hmember
    rw [runOn_operation, runOn_bind_of_ok (approach_leaveMarket_of_not_member hlisted' hmember')]
    exact .passed
  · obtain ⟨plan, hplan, -⟩ := perform_unregister_eq_ok.mp hunregister
    have hmember' := (hbooks.isMember_eq ..).trans hmember
    have hdebt' := (hbooked.hasDebt_eq _).trans hdebt
    have hplan' := (hbooked.planUnregister_eq _).trans hplan
    rw [(leaveMarket_comesTo hlisted' hmember' hdebt' hplan').runOn_fst,
      hbooked.collateralTokens_eq]
    exact hbooks.redeemVerdict hc hc' hlisted (.inr ⟨rfl, Nat.le_refl _⟩) hverdict

theorem of_borrow (hbooks : c.Books now c') (hc : c.Sound) (hc' : c'.Sound)
    (hborrow : (Operation.borrow account market amount now prices).runOn c = (.ok events, c₁)) :
    (Dealing.borrow account market amount now prices).RefusedForGrowth now account prices c c' := by
  obtain ⟨listing, plan, hlisted, hplan, hborrow⟩ := borrow_eq_ok hborrow
  have hfresh := accrualTimestamp_eq_of_requireFresh hplan
  have hlisted' := hbooks.listed?_of_fresh hlisted hfresh
  rcases hborrow with ⟨hmember, hverdict, -⟩ |
    ⟨hmember, state, registered, hregister, hverdict, -⟩
  · have hmember' := (hbooks.isMember_eq ..).trans hmember
    refine ⟨market, listing, rfl, hlisted, ?_⟩
    rw [(borrow_comesTo_of_member hlisted' hmember' hplan).runOn_fst]
    exact hbooks.borrowVerdict hc hc' hlisted hfresh hverdict
  · have hmember' := (hbooks.isMember_eq ..).trans hmember
    refine ⟨market, listing, rfl, hlisted, ?_⟩
    rw [(borrow_comesTo_of_register hlisted' hmember' hregister hplan).runOn_fst]
    exact hbooks.borrowVerdict hc hc' hlisted hfresh hverdict

end Dealing.RefusedForGrowth

/-- What passes a gate before interest is booked passes it after, but for the
growth of the debts. -/
theorem Dealing.refusedForGrowth {dealing : Dealing} {u : Unit} {c₁ : Controller}
    (hbooks : c.Books now c') (hc : c.Sound) (hc' : c'.Sound)
    (hrun : dealing.operation.runOn c = (.ok u, c₁))
    (hjudged : dealing.judged? = some (account, prices))
    (htime : ∀ time, dealing.time? = some time → time = now) :
    dealing.RefusedForGrowth now account prices c c' := by
  cases dealing with
  | redeem =>
      cases hjudged
      cases htime _ rfl
      obtain ⟨events, hredeem⟩ := runOn_silently_eq_ok.mp hrun
      exact .of_redeem hbooks hc hc' hredeem
  | redeemUnderlying =>
      cases hjudged
      cases htime _ rfl
      obtain ⟨events, hredeem⟩ := runOn_silently_eq_ok.mp hrun
      exact .of_redeemUnderlying hbooks hc hc' hredeem
  | borrow =>
      cases hjudged
      cases htime _ rfl
      obtain ⟨events, hborrow⟩ := runOn_silently_eq_ok.mp hrun
      exact .of_borrow hbooks hc hc' hborrow
  | transfer =>
      cases hjudged
      obtain ⟨events, htransfer⟩ := runOn_silently_eq_ok.mp hrun
      exact .of_transfer hbooks hc hc' htransfer
  | leaveMarket =>
      cases hjudged
      obtain ⟨events, hleave⟩ := runOn_silently_eq_ok.mp hrun
      exact .of_leaveMarket hbooks hc hc' hleave
  | mint | repay | flashloan | enterMarket | enterMarkets | liquidate | addReserves =>
      cases hjudged

/-- Where an account owes in fresh markets only, no debts grow. -/
theorem Controller.Books.debtGrowth_eq_zero (hbooks : c.Books now c')
    (hfresh : ∀ market listing, c.listed? market = some listing →
      listing.state.hasDebt account = true → listing.state.isFresh now = true) :
    c.debtGrowth c' account prices = 0 := by
  have hburden : ∀ market, c'.burden account none prices market =
      c.burden account none prices market := by
    intro market
    rw [burden_none, burden_none]
    cases hget : c.markets.get? market with
    | none => rw [hbooks.unknown market hget]
    | some listing =>
        obtain ⟨state, hget', hbooked, hunlisted⟩ := hbooks.known market listing hget
        have hdebt : state.debtOf account = listing.state.debtOf account := by
          cases howes : listing.state.hasDebt account with
          | false => exact hbooked.debtOf_eq howes
          | true =>
              cases hisListed : listing.policy.isListed with
              | false => rw [hunlisted hisListed]
              | true =>
                  have hlisted := listed?_eq_some.mpr ⟨hget, hisListed⟩
                  have hnow := hfresh market listing hlisted howes
                  rw [hbooked.eq_of_fresh (of_decide_eq_true hnow)]
        rw [hget', Option.elim_some, Option.elim_some, hdebt]
  unfold debtGrowth required
  rw [hbooks.known_eq, Finset.sum_congr rfl fun market _ => hburden market, Nat.sub_self]

/-- A dealing that passes its gate on interest that is not booked may be refused
once it is. Then the account lacks at most what its debts have grown by, and a
unit for the rounding if the market of the dealing was stale. Where this market
and those in which the account owes are fresh, the dealing passes as well with
all interest booked, unless the figures overflow then. -/
theorem Controller.Reachable.refusedWithin_debtGrowth {dealing : Dealing} {u : Unit}
    (hc : c.Reachable) (hrun : dealing.operation.runOn c = (.ok u, c'))
    (hjudged : dealing.judged? = some (account, prices))
    (htime : ∀ time, dealing.time? = some time → time = now) :
    ∃ market, dealing.judgedIn? = some market ∧
      RefusedWithin (c.debtGrowth (c.after (.accrueAll now)) account prices +
          c.staleUnit market now)
        (dealing.operation.runOn (c.after (.accrueAll now))).1 ∧
      ((∀ other listing, c.listed? other = some listing →
          other = market ∨ listing.state.hasDebt account = true →
            listing.state.isFresh now = true) →
        (dealing.operation.runOn (c.after (.accrueAll now))).1 = .ok () ∨
          (dealing.operation.runOn (c.after (.accrueAll now))).1 =
            .error (.arithmetic .overflow)) := by
  have hbooks := Books.after_accrueAll now c
  have hsound := (hc.called (.accrueAll now)).sound
  obtain ⟨market, listing, hmarket, hlisted, hrefused⟩ :=
    Dealing.refusedForGrowth hbooks hc.sound hsound hrun hjudged htime
  refine ⟨market, hmarket, hrefused, ?_⟩
  intro hfresh
  have hgrowth : c.debtGrowth (c.after (.accrueAll now)) account prices = 0 :=
    hbooks.debtGrowth_eq_zero fun other listing hlisted howes =>
      hfresh other listing hlisted (.inr howes)
  have hunit : c.staleUnit market now = 0 := by
    have hget := (listed?_eq_some.mp hlisted).1
    simp [staleUnit, market?, hget, hfresh _ listing hlisted (.inl rfl)]
  rw [hgrowth, hunit] at hrefused
  exact hrefused.of_zero

namespace Controller

/-- A borrower whose collateral is in a fresh market. The interest on its debt,
in the other one, is not booked. -/
def unbookedSample : Controller :=
  [.listMarket ⟨"admin"⟩ sampleMarket sampleMarket_created,
    .listMarket ⟨"admin"⟩ collateralMarket collateralMarket_created,
    .setCollateralFactor ⟨"admin"⟩ ⟨"jETH"⟩ ⟨.ofUInt64 800_000_000_000_000_000⟩ bothPrices,
    .deal (.mint ⟨"alice"⟩ ⟨"jUSD"⟩ (.ofUInt64 1_000_000) 0),
    .deal (.mint ⟨"bob"⟩ ⟨"jETH"⟩ (.ofUInt64 1_000_000) 0),
    .deal (.enterMarket ⟨"bob"⟩ ⟨"jETH"⟩),
    .deal (.borrow ⟨"bob"⟩ ⟨"jUSD"⟩ (.ofUInt64 600_000) 0 bothPrices),
    .accrue ⟨"jETH"⟩ 1000].foldl after sampleMade

theorem unbookedSample_reachable : unbookedSample.Reachable :=
  (Reachable.made make_sampleMade).foldl _

/-- All collateral that the debt without its interest does not need. -/
def unbookedRedemption : Dealing := .redeem ⟨"bob"⟩ ⟨"jETH"⟩ (.ofUInt64 250_000) 1000 bothPrices

/-- The same collateral, sent to somebody else. -/
def unbookedTransfer : Dealing :=
  .transfer ⟨"bob"⟩ ⟨"carol"⟩ ⟨"jETH"⟩ (.ofUInt64 250_000) bothPrices

theorem unbookedSample_redeems :
    (unbookedRedemption.operation.runOn unbookedSample).1 = .ok () := by
  decide +kernel

theorem unbookedSample_refuses :
    (unbookedRedemption.operation.runOn (unbookedSample.after (.accrueAll 1000))).1 =
      .error (.rejected (.insufficientLiquidity ⟨600, by decide⟩)) := by
  decide +kernel

/-- What lacks once the interest is booked has accrued on the debt. -/
theorem unbookedSample_refusedWithin_debtGrowth :
    unbookedSample.Reachable ∧ (unbookedRedemption.operation.runOn unbookedSample).1 = .ok () ∧
      (unbookedRedemption.operation.runOn (unbookedSample.after (.accrueAll 1000))).1 =
        .error (.rejected (.insufficientLiquidity ⟨600, by decide⟩)) ∧
      600 ≤ unbookedSample.debtGrowth (unbookedSample.after (.accrueAll 1000)) ⟨"bob"⟩
        bothPrices + unbookedSample.staleUnit ⟨"jETH"⟩ 1000 := by
  have hrun := runOn_eq_after unbookedSample_redeems
  have htime : ∀ time, unbookedRedemption.time? = some time → time = 1000 := by
    rintro time ⟨⟩
    rfl
  obtain ⟨_, ⟨⟩, hrefused, -⟩ :=
    unbookedSample_reachable.refusedWithin_debtGrowth hrun rfl htime
  refine ⟨unbookedSample_reachable, unbookedSample_redeems, unbookedSample_refuses, ?_⟩
  rw [unbookedSample_refuses] at hrefused
  cases hrefused with
  | refused _ hlimit => exact hlimit

/-- Interest that is not booked lets collateral go: all interest can be booked,
and a redemption in a fresh market and a transfer that succeed before are then
refused. -/
theorem unbooked_interest_frees_collateral :
    unbookedSample.Reachable ∧
      ((Operation.accrueAll 1000).silently.runOn unbookedSample).1 = .ok () ∧
      ∀ dealing ∈ [unbookedRedemption, unbookedTransfer],
        (dealing.operation.runOn unbookedSample).1 = .ok () ∧
          (dealing.operation.runOn (unbookedSample.after (.accrueAll 1000))).1 =
            .error (.rejected (.insufficientLiquidity ⟨600, by decide⟩)) := by
  refine ⟨unbookedSample_reachable, by decide +kernel, ?_⟩
  simp only [List.forall_mem_cons, List.not_mem_nil, false_implies, implies_true, and_true]
  refine ⟨⟨unbookedSample_redeems, unbookedSample_refuses⟩, ?_, ?_⟩
  all_goals decide +kernel

end Controller

end MoneyMarket
