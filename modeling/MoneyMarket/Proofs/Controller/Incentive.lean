import Mathlib.Tactic.GCongr
import Mathlib.Tactic.Positivity
import Mathlib.Tactic.Ring
import MoneyMarket.Proofs.Controller.Debts
import MoneyMarket.Proofs.Controller.Valuation

/-! # What a liquidator gets

The number of tokens that a liquidator gets is a ratio of two products, and all
three are cut behind the last place. Cutting the dividend and the ratio spares
the borrower. Cutting the divisor, what a token is worth, makes the ratio
larger. So the tokens are worth no more than what is due to the liquidator if
their worth is cut alike, and in full only where nothing is cut from it.
Otherwise they may be worth more, but less than one part more in the units that
are left of the divisor, which is at most as much again.
-/

namespace MoneyMarket

open Controller

variable {c : Controller} {market marketBorrowed marketCollateral : MarketId}
  {repayAmount seized : Amount} {prices : Prices}

/-- What a liquidator is due for a repayment: the units of the repaid amount
times the incentive and the price. -/
def Controller.due (c : Controller) (market : MarketId) (repayAmount : Amount)
    (prices : Prices) : Nat :=
  repayAmount.toNat * c.liquidationIncentive.mantissa.toNat * prices.units market

/-- What a market token is worth: the units of the price times those of the
exchange rate. -/
def tokenWorth (prices : Prices) (market : MarketId) (rate : Wad) : Nat :=
  prices.units market * rate.mantissa.toNat

namespace Controller

/-- The number of seized tokens, with all its cuts. -/
theorem seizeTokens_eq_ok
    (hseized : c.seizeTokens marketBorrowed marketCollateral repayAmount prices = .ok seized) :
    ∃ collateral rate, c.market? marketCollateral = some collateral ∧
      collateral.exchangeRate = .ok rate ∧
      tokenWorth prices marketCollateral rate / 10 ^ 18 ≠ 0 ∧
      seized.toNat = c.liquidationIncentive.mantissa.toNat * prices.units marketBorrowed /
        10 ^ 18 * 10 ^ 18 / (tokenWorth prices marketCollateral rate / 10 ^ 18) *
          repayAmount.toNat / 10 ^ 18 := by
  unfold seizeTokens at hseized
  obtain ⟨priceBorrowed, hborrowed, hseized⟩ := bind_eq_ok.mp hseized
  obtain ⟨priceCollateral, hcollateral, hseized⟩ := bind_eq_ok.mp hseized
  cases hmarket : c.market? marketCollateral with
  | none =>
      rw [hmarket] at hseized
      cases hseized
  | some collateral =>
      simp only [hmarket, bind_eq_ok, liftM_controller_eq_ok] at hseized
      obtain ⟨rate, hrate, numerator, hnumerator, denominator, hdenominator, ratio, hratio,
        hseized⟩ := hseized
      have hworth : denominator.mantissa.toNat =
          tokenWorth prices marketCollateral rate / 10 ^ 18 := by
        rw [Wad.mul_eq_ok hdenominator, tokenWorth, priceOf_eq_ok hcollateral]
      refine ⟨collateral, rate, rfl, hrate, ?_, ?_⟩
      · rw [← hworth]
        simp only [Wad.div, Wad.ofRatio, guard_eq_ok, Amount.eq_zero_iff] at hratio
        exact hratio.1
      · rw [← hworth, priceOf_eq_ok hborrowed, Wad.mulTruncate_eq_ok hseized,
          Wad.ofRatio_eq_ok hratio, Wad.mul_eq_ok hnumerator]

/-- Cutting the dividend and the ratio spares the borrower. -/
theorem cut_ratio_mul_le {dividend divisor amount due : Nat} (hdue : dividend * amount ≤ due) :
    dividend / 10 ^ 18 * 10 ^ 18 / divisor * amount / 10 ^ 18 * (divisor * 10 ^ 18) ≤ due := by
  set ratio := dividend / 10 ^ 18 * 10 ^ 18 / divisor with hratio
  calc ratio * amount / 10 ^ 18 * (divisor * 10 ^ 18)
      = ratio * amount / 10 ^ 18 * 10 ^ 18 * divisor := by ring
    _ ≤ ratio * amount * divisor := Nat.mul_le_mul_right _ (Nat.div_mul_le_self _ _)
    _ = ratio * divisor * amount := by ring
    _ ≤ dividend / 10 ^ 18 * 10 ^ 18 * amount :=
        Nat.mul_le_mul_right _ (Nat.div_mul_le_self _ _)
    _ ≤ dividend * amount := Nat.mul_le_mul_right _ (Nat.div_mul_le_self _ _)
    _ ≤ due := hdue

/-- The tokens are worth no more than what is due if their worth is cut to
units of a wad, so in particular where nothing is cut from it. Otherwise they
are worth more by less than one part in these units. -/
theorem seizeTokens_worth_le
    (hseized : c.seizeTokens marketBorrowed marketCollateral repayAmount prices = .ok seized) :
    ∃ collateral rate, c.market? marketCollateral = some collateral ∧
      collateral.exchangeRate = .ok rate ∧
      let worth := tokenWorth prices marketCollateral rate
      let due := c.due marketBorrowed repayAmount prices
      worth / 10 ^ 18 ≠ 0 ∧
        seized.toNat * (worth / 10 ^ 18 * 10 ^ 18) ≤ due ∧
        (10 ^ 18 ∣ worth → seized.toNat * worth ≤ due) ∧
        worth / 10 ^ 18 * (seized.toNat * worth) ≤ (worth / 10 ^ 18 + 1) * due := by
  obtain ⟨collateral, rate, hmarket, hrate, hpositive, hcount⟩ := seizeTokens_eq_ok hseized
  refine ⟨collateral, rate, hmarket, hrate, hpositive, ?_⟩
  set worth := tokenWorth prices marketCollateral rate
  set due := c.due marketBorrowed repayAmount prices
  have hcut : seized.toNat * (worth / 10 ^ 18 * 10 ^ 18) ≤ due := by
    rw [hcount]
    apply cut_ratio_mul_le
    apply le_of_eq
    change _ = repayAmount.toNat * _ * _
    ring
  refine ⟨hcut, ?_, ?_⟩
  · intro hdvd
    rwa [Nat.div_mul_cancel hdvd] at hcut
  · have hworth : worth ≤ (worth / 10 ^ 18 + 1) * 10 ^ 18 :=
      (Nat.lt_mul_of_div_lt (Nat.lt_succ_self _) (by positivity)).le
    calc worth / 10 ^ 18 * (seized.toNat * worth)
        ≤ worth / 10 ^ 18 * (seized.toNat * ((worth / 10 ^ 18 + 1) * 10 ^ 18)) := by gcongr
      _ = (worth / 10 ^ 18 + 1) * (seized.toNat * (worth / 10 ^ 18 * 10 ^ 18)) := by ring
      _ ≤ (worth / 10 ^ 18 + 1) * due := by gcongr

/-- At a price and a rate of one nothing is cut. -/
theorem sample_seizes_no_more :
    sample.seizeTokens ⟨"jUSD"⟩ ⟨"jUSD"⟩ ⟨4, by decide⟩ samplePrices = .ok ⟨4, by decide⟩ ∧
      4 * tokenWorth samplePrices ⟨"jUSD"⟩ 1 ≤ sample.due ⟨"jUSD"⟩ ⟨4, by decide⟩ samplePrices := by
  have hseized : sample.seizeTokens ⟨"jUSD"⟩ ⟨"jUSD"⟩ ⟨4, by decide⟩ samplePrices =
      .ok ⟨4, by decide⟩ := by decide +kernel
  have hsample : (sample.market? ⟨"jUSD"⟩).map Market.exchangeRate = some (.ok 1) := by
    decide +kernel
  obtain ⟨collateral, rate, hmarket, hrate, -, -, hexact, -⟩ := seizeTokens_worth_le hseized
  rw [hmarket, Option.map_some, hrate] at hsample
  cases hsample
  exact ⟨hseized, hexact (by decide +kernel)⟩

/-- A market whose tokens are worth little at first. -/
def cheapMarket : Market :=
  { sampleMarket with
    id := ⟨"jETH"⟩
    kind := .vanilla
    initialExchangeRate := ⟨.ofUInt64 20_000_000_000_000_000⟩ }

theorem cheapMarket_created : cheapMarket.Created := by
  have hmake : Market.make ⟨"jETH"⟩ .vanilla Market.sample.rateModel
      ⟨.ofUInt64 20_000_000_000_000_000⟩ 0 = .ok cheapMarket := by rfl
  exact .make hmake

/-- A hundred less one units of a wad for the underlying of either market. -/
def cheapPrices : Prices :=
  (Prices.empty.insert ⟨⟨"jUSD"⟩, ⟨.ofUInt64 99⟩, .ofSeconds 0, "feed"⟩).insert
    ⟨⟨"jETH"⟩, ⟨.ofUInt64 99⟩, .ofSeconds 0, "feed"⟩

def cheapSample : Controller :=
  [.listMarket ⟨"admin"⟩ sampleMarket sampleMarket_created,
    .listMarket ⟨"admin"⟩ cheapMarket cheapMarket_created].foldl after sampleMade

/-- Nearly one half is cut from what a token is worth, and the liquidator gets
nearly twice as many tokens as it is due. -/
theorem cheapSample_seizes_more : cheapSample.Reachable ∧
    (cheapSample.market? ⟨"jETH"⟩).map Market.exchangeRate =
      some (.ok cheapMarket.initialExchangeRate) ∧
    cheapSample.seizeTokens ⟨"jUSD"⟩ ⟨"jETH"⟩ ⟨100, by decide⟩ cheapPrices =
      .ok ⟨10_600, by decide⟩ ∧
    cheapSample.due ⟨"jUSD"⟩ ⟨100, by decide⟩ cheapPrices =
      5_400 * tokenWorth cheapPrices ⟨"jETH"⟩ cheapMarket.initialExchangeRate ∧
    cheapSample.due ⟨"jUSD"⟩ ⟨100, by decide⟩ cheapPrices <
      10_600 * tokenWorth cheapPrices ⟨"jETH"⟩ cheapMarket.initialExchangeRate := by
  refine ⟨(Reachable.made make_sampleMade).foldl _, ?_, ?_, ?_, ?_⟩
  all_goals decide +kernel

end Controller

end MoneyMarket
