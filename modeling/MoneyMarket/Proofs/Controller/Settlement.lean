import MoneyMarket.Proofs.Controller.Gates
import MoneyMarket.Proofs.Controller.Run
import MoneyMarket.Proofs.Market.Settlement

/-! # What a liquidation comes to

Who may be liquidated and for how much, and what a liquidation leaves: a
repayment in one market and a seizure in another one or in the same. No other
market changes, and nothing but markets does.
-/

namespace MoneyMarket

open Controller Market

variable {c c' : Controller} {marketBorrowed marketCollateral : MarketId}
  {liquidator borrower : AccountId} {repayAmount : Amount} {now : UInt64} {prices : Prices}
  {liquidation : Liquidation}

namespace Controller

/-- An account without credit lacks something, and another one repays no more
than the share of a debt that the close factor gives. -/
structure MayLiquidate (c : Controller) (liquidator borrower : AccountId)
    (marketBorrowed : MarketId) (repayAmount : Amount) (prices : Prices) : Prop where
  ne : liquidator ≠ borrower
  noCredit : c.isCreditAccount borrower = false
  short : ∃ l, c.liquidity borrower prices = .ok l ∧ 0 < l.shortfall
  positive : 0 < repayAmount
  share : ∃ listing owed, c.listed? marketBorrowed = some listing ∧
    listing.state.owed borrower = .ok owed ∧
    repayAmount.toNat ≤ c.closeFactor.mantissa.toNat * owed.toNat / 10 ^ 18

/-- One market is repaid and one seized from, which may be the same, and
nothing else differs. -/
structure Liquidated (c c' : Controller) (liquidator borrower : AccountId)
    (marketBorrowed marketCollateral : MarketId) (repayAmount seizeTokens : Amount) :
    Prop where
  borrowed : ∃ listing state, c.listed? marketBorrowed = some listing ∧
    c'.listed? marketBorrowed = some { listing with state } ∧
    listing.state.Repays state borrower repayAmount ∧ listing.state.SameTerms state ∧
    (marketBorrowed ≠ marketCollateral → listing.state.SameTokens state)
  collateral : ∃ listing state, c.listed? marketCollateral = some listing ∧
    c'.listed? marketCollateral = some { listing with state } ∧
    listing.state.Seizes state borrower liquidator seizeTokens ∧ listing.state.SameTerms state ∧
    (marketBorrowed ≠ marketCollateral → listing.state.SameDebts state)
  others : ∀ market, marketBorrowed ≠ market → marketCollateral ≠ market →
    c'.markets.get? market = c.markets.get? market
  rest : { c' with markets := c.markets } = c

theorem liquidationVerdict_eq_allow
    (hverdict : c.liquidationVerdict marketBorrowed marketCollateral borrower repayAmount prices =
      .ok .allow) :
    c.isCreditAccount borrower = false ∧
      (∃ l, c.liquidity borrower prices = .ok l ∧ 0 < l.shortfall) ∧
      ∃ listing owed, c.listed? marketBorrowed = some listing ∧
        listing.state.owed borrower = .ok owed ∧
        repayAmount.toNat ≤ c.closeFactor.mantissa.toNat * owed.toNat / 10 ^ 18 := by
  obtain ⟨listing, l, owed, maxClose, hlisted, -, hcredit, hl, hshort, howed, hmaxClose, hle⟩ :=
    liquidationVerdict_eq_allow_iff.mp hverdict
  refine ⟨hcredit, ⟨l, hl, ?_⟩, listing, owed, hlisted, howed, ?_⟩
  · exact Nat.pos_of_ne_zero fun hzero => hshort (Amount.eq_zero_iff.mpr hzero)
  · rw [← Wad.mulTruncate_eq_ok hmaxClose]
    exact hle

end Controller

/-- A liquidation that succeeds was allowed, seizes what the prices before it
give, and does nothing else than it says. -/
theorem Operation.liquidated_of_liquidate
    (hliquidate : (liquidate liquidator borrower marketBorrowed marketCollateral repayAmount now
      prices).runOn c = (.ok liquidation, c')) :
    c.MayLiquidate liquidator borrower marketBorrowed repayAmount prices ∧
      liquidation.repayAmount = repayAmount ∧
      c.seizeTokens marketBorrowed marketCollateral repayAmount prices =
        .ok liquidation.seizeTokens ∧
      c.Liquidated c' liquidator borrower marketBorrowed marketCollateral repayAmount
        liquidation.seizeTokens := by
  obtain ⟨hne, hzero, hlargest, hverdict, borrowed, repayment, repaid, collateral, seizure,
    hborrowed, hrepayment, hamount, rfl, htokens, hcollateral, hseizure, rfl⟩ :=
    liquidate_eq_ok hliquidate
  obtain ⟨hcredit, hshort, hshare⟩ := liquidationVerdict_eq_allow hverdict
  obtain ⟨_, -, hrepaid⟩ := planRepay_repayAmount hrepayment
  rw [if_neg hlargest] at hrepaid
  have hrepays := repays_settleRepay hrepayment
  have hseizes := seizes_settleMove hseizure
  have hdebts := sameDebts_settleMove collateral.state seizure
  have htokens' := sameTokens_settleRepay borrowed.state repayment
  have hrepayTerms := sameTerms_settleRepay borrowed.state repayment
  have hseizeTerms := sameTerms_settleMove collateral.state seizure
  rw [hrepaid] at hrepays htokens hamount
  have hpositive : 0 < repayAmount :=
    Nat.pos_of_ne_zero fun h => hzero (Amount.eq_zero_iff.mpr h)
  refine ⟨⟨hne, hcredit, hshort, hpositive, hshare⟩, hamount, htokens, ?_⟩
  by_cases heq : marketBorrowed = marketCollateral
  · -- the seizure starts from what the repayment left
    subst heq
    cases (listed?_setState_self _ hborrowed).symm.trans hcollateral
    rw [setState_setState]
    have hlisted := listed?_setState_self
      ((borrowed.state.settleRepay repayment).1.settleMove seizure).1 hborrowed
    have hterms := hrepayTerms.trans hseizeTerms
    refine ⟨⟨borrowed, _, hborrowed, hlisted, hrepays.of_sameDebts hdebts, hterms, ?_⟩,
      ⟨borrowed, _, hborrowed, hlisted, hseizes.of_sameTokens htokens', hterms, ?_⟩, ?_, rfl⟩
    · exact fun hne => absurd rfl hne
    · exact fun hne => absurd rfl hne
    · intro market hother _
      rw [get?_setState, if_neg hother]
  · have hlisted := hcollateral
    rw [listed?_setState _ hborrowed, if_neg heq] at hcollateral
    refine ⟨⟨borrowed, _, hborrowed, ?_, hrepays, hrepayTerms, fun _ => htokens'⟩,
      ⟨collateral, _, hcollateral, listed?_setState_self _ hlisted, hseizes, hseizeTerms,
        fun _ => hdebts⟩, ?_, rfl⟩
    · rw [listed?_setState _ hlisted, if_neg (Ne.symm heq)]
      exact listed?_setState_self _ hborrowed
    · intro market hother hother'
      rw [get?_setState, if_neg hother', get?_setState, if_neg hother]

namespace Controller

/-- The small supplier of the sample lacks something once its collateral counts
for less. -/
def shortSample : Controller :=
  sample.after (.setCollateralFactor ⟨"admin"⟩ ⟨"jUSD"⟩ ⟨.ofUInt64 500_000_000_000_000_000⟩
    samplePrices)

/-- Half of its debt is repaid, for tokens of the same market. -/
theorem shortSample_liquidated :
    shortSample.Reachable ∧ ∃ liquidation c',
      (Operation.liquidate ⟨"bob"⟩ ⟨"alice"⟩ ⟨"jUSD"⟩ ⟨"jUSD"⟩ ⟨4, by decide⟩ 0
        samplePrices).runOn shortSample = (.ok liquidation, c') ∧
      liquidation.seizeTokens = ⟨4, by decide⟩ ∧
      shortSample.MayLiquidate ⟨"bob"⟩ ⟨"alice"⟩ ⟨"jUSD"⟩ ⟨4, by decide⟩ samplePrices ∧
      shortSample.Liquidated c' ⟨"bob"⟩ ⟨"alice"⟩ ⟨"jUSD"⟩ ⟨"jUSD"⟩ ⟨4, by decide⟩
        ⟨4, by decide⟩ := by
  have hseized : ((Operation.liquidate ⟨"bob"⟩ ⟨"alice"⟩ ⟨"jUSD"⟩ ⟨"jUSD"⟩ ⟨4, by decide⟩ 0
      samplePrices).runOn shortSample).1.map Liquidation.seizeTokens = .ok ⟨4, by decide⟩ := by
    decide +kernel
  cases hrun : (Operation.liquidate ⟨"bob"⟩ ⟨"alice"⟩ ⟨"jUSD"⟩ ⟨"jUSD"⟩ ⟨4, by decide⟩ 0
      samplePrices).runOn shortSample with
  | mk result c' =>
      rw [hrun] at hseized
      cases result with
      | error e => cases hseized
      | ok liquidation =>
          have htokens : liquidation.seizeTokens = ⟨4, by decide⟩ := Except.ok.inj hseized
          obtain ⟨hmay, -, -, hliquidated⟩ := Operation.liquidated_of_liquidate hrun
          rw [htokens] at hliquidated
          exact ⟨sample_reachable.called _, liquidation, c', rfl, htokens, hmay, hliquidated⟩

end Controller

end MoneyMarket
