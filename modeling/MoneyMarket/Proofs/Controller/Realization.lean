import Mathlib.Algebra.BigOperators.Group.Finset.Piecewise
import MoneyMarket.Proofs.Controller.Sparing

/-! # Changes that come about

A hypothetical change of one market is judged before it is made. What is then
made of it differs in the exchange rate, in registrations and in memberships,
and is rounded apart from the figures that it changes. What the remaining
collateral gains when the exchange rate rises was not judged. Apart from that
the account has as much available afterwards as was judged, or a unit less.
-/

namespace MoneyMarket

open Finset Hypothetical

variable {c c' : Controller} {account : AccountId} {market : MarketId} {prices : Prices}
  {listing listing' : Listing} {memberships : Memberships} {state : Market}
  {change : Hypothetical} {price : Nat}

/-- The exchange rate of a market, where there is one. -/
def Controller.rate? (c : Controller) (market : MarketId) : Option Nat :=
  (c.markets.get? market).map fun listing => listing.state.rate

/-- What the collateral of an account is worth in a market, beyond its worth at
the exchange rate of before. -/
def Controller.gainIn (c' : Controller) (account : AccountId) (market : MarketId)
    (listing listing' : Listing) (price : Nat) : Nat :=
  c'.worthIn account market listing' none price -
    listing.tokenValue price * (listing'.state.collateralTokens account).toNat / 10 ^ 18

/-- What the collateral that an account has left in a market gains there by a
change of the exchange rate. -/
def Controller.gain (c c' : Controller) (account : AccountId) (prices : Prices)
    (market : MarketId) : Nat :=
  match c.markets.get? market, c'.markets.get? market with
  | some listing, some listing' =>
      c'.gainIn account market listing listing' (prices.units market)
  | _, _ => 0

/-- What a change leads to, found out by making it, is what it was judged to
lead to, with what is gained in the market that it changes, and but for one
unit there. Nothing is gained unless the exchange rate changes. -/
structure Controller.Realizes (account : AccountId) (prices : Prices) (change : Hypothetical)
    (c c' : Controller) : Prop where
  limit : c'.creditLimit? account = c.creditLimit? account
  known : c'.known = c.known
  judged_le : ∀ market,
    c.worth account (some change) prices market + c'.burden account none prices market +
        (if market = change.market then c.gain c' account prices market else 0) ≤
      c'.worth account none prices market + c.burden account (some change) prices market +
        if market = change.market then 1 else 0
  le_judged : ∀ market,
    c'.worth account none prices market + c.burden account (some change) prices market ≤
      c.worth account (some change) prices market + c'.burden account none prices market +
        if market = change.market then c.gain c' account prices market else 0
  unmoved : c'.rate? change.market = c.rate? change.market →
    c.gain c' account prices change.market = 0

namespace Controller

theorem sum_gain : ∑ k ∈ c.known, (if k = market then c.gain c' account prices k else 0) =
    c.gain c' account prices market := by
  rw [sum_ite_eq']
  split
  next => rfl
  next hunknown =>
    cases hget : c.markets.get? market with
    | none => simp only [gain, hget]
    | some listing => exact absurd (mem_known.mpr ⟨listing, hget⟩) hunknown

theorem Realizes.available_le (hrealizes : c.Realizes account prices change c') :
    c.available account (some change) prices + c'.required account none prices +
        c.gain c' account prices change.market ≤
      c'.available account none prices + c.required account (some change) prices + 1 := by
  have hsum := sum_le_sum fun market (_ : market ∈ c.known) => hrealizes.judged_le market
  have hunit : ∑ market ∈ c.known, (if market = change.market then 1 else 0) ≤ 1 := by
    rw [sum_ite_eq']
    split <;> decide
  simp only [sum_add_distrib, sum_gain] at hsum
  unfold available required
  rw [hrealizes.limit, hrealizes.known]
  omega

theorem Realizes.le_available (hrealizes : c.Realizes account prices change c') :
    c'.available account none prices + c.required account (some change) prices ≤
      c.available account (some change) prices + c'.required account none prices +
        c.gain c' account prices change.market := by
  have hsum := sum_le_sum fun market (_ : market ∈ c.known) => hrealizes.le_judged market
  simp only [sum_add_distrib, sum_gain] at hsum
  unfold available required
  rw [hrealizes.limit, hrealizes.known]
  omega

/-! ## One market -/

/-- In one market a change leads to what it was judged to lead to, as far as the
rounding of the figures goes. -/
structure Foreseen (account : AccountId) (change : Hypothetical) (c c' : Controller)
    (listing listing' : Listing) (price : Nat) : Prop where
  judged_le : c.worthIn account change.market listing (some change) price +
      c'.burdenIn account change.market listing' none price +
      c'.gainIn account change.market listing listing' price ≤
    c'.worthIn account change.market listing' none price +
      c.burdenIn account change.market listing (some change) price + 1
  le_judged : c'.worthIn account change.market listing' none price +
      c.burdenIn account change.market listing (some change) price ≤
    c.worthIn account change.market listing (some change) price +
      c'.burdenIn account change.market listing' none price +
      c'.gainIn account change.market listing listing' price

/-- Figures taken in two parts lose at most one unit more than taken at once. -/
theorem mul_add_div_le (value m n : Nat) :
    value * m / 10 ^ 18 + value * n / 10 ^ 18 ≤ value * (m + n) / 10 ^ 18 ∧
      value * (m + n) / 10 ^ 18 ≤ value * m / 10 ^ 18 + value * n / 10 ^ 18 + 1 := by
  rw [Nat.mul_add]
  omega

/-- A market where a change was made. -/
structure Made (account : AccountId) (change : Hypothetical) (c c' : Controller)
    (listing listing' : Listing) : Prop where
  policy : listing'.policy = listing.policy
  counts : c.Counts account change.market listing change.enteringCollateral ↔
    c'.Counts account change.market listing' none
  collateral : (change.enteringCollateral.getD (listing.state.collateralTokens account)).toNat =
    (listing'.state.collateralTokens account).toNat + change.redeemTokens.toNat
  debt : listing'.state.debtOf account =
    listing.state.debtOf account + change.borrowAmount.toNat
  rate : (listing'.state.collateralTokens account).toNat ≠ 0 →
    listing.state.rate ≤ listing'.state.rate
  /-- Of debt and collateral one only is changed, so that one unit only is lost. -/
  one : change.borrowAmount = 0 ∨ change.redeemTokens = 0

theorem Made.foreseen (hmade : Made account change c c' listing listing') :
    Foreseen account change c c' listing listing' price := by
  have hdebt_split :=
    mul_add_div_le price (listing.state.debtOf account) change.borrowAmount.toNat
  have hworth := Nat.div_le_div_right (c := 10 ^ 18)
    (tokenValue_mul_le price hmade.policy hmade.rate)
  have hworth_split := mul_add_div_le (listing.tokenValue price)
    (listing'.state.collateralTokens account).toNat change.redeemTokens.toNat
  -- the collateral loses a unit or the debt does
  have hone : price * change.borrowAmount.toNat / 10 ^ 18 = 0 ∧
        price * (listing.state.debtOf account + change.borrowAmount.toNat) / 10 ^ 18 =
          price * listing.state.debtOf account / 10 ^ 18 ∨
      listing.tokenValue price * change.redeemTokens.toNat / 10 ^ 18 = 0 ∧
        listing.tokenValue price *
            ((listing'.state.collateralTokens account).toNat + change.redeemTokens.toNat) /
              10 ^ 18 =
          listing.tokenValue price * (listing'.state.collateralTokens account).toNat / 10 ^ 18 := by
    rcases hmade.one with hzero | hzero
    · exact .inl (by simp [hzero])
    · exact .inr (by simp [hzero])
  by_cases hbefore : c.Counts account change.market listing change.enteringCollateral
  · have hafter := hmade.counts.mp hbefore
    constructor <;>
      rw [gainIn, worthIn_none, burdenIn_none, worthIn_some, burdenIn_some, hmade.collateral,
        hmade.debt, if_pos hbefore, if_pos hbefore, if_pos hafter] <;>
      omega
  · have hafter := mt hmade.counts.mpr hbefore
    constructor <;>
      rw [gainIn, worthIn_none, burdenIn_none, worthIn_some, burdenIn_some, hmade.debt,
        if_neg hbefore, if_neg hbefore, if_neg hafter] <;>
      omega

/-- Where all collateral is taken from who is no member then, nothing changes. -/
theorem Foreseen.of_not_counts
    (hcounts : ¬c'.Counts account market listing' none)
    (hdebt : listing'.state.debtOf account = listing.state.debtOf account) :
    Foreseen account { market, redeemTokens := listing.state.collateralTokens account } c c'
      listing listing' price := by
  constructor <;>
    rw [gainIn, worthIn_none, burdenIn_none, worthIn_some, burdenIn_some, if_neg hcounts, hdebt] <;>
    simp only [Option.getD_none, Amount.toNat_zero, Nat.mul_zero, Nat.zero_div] <;>
    omega

/-! ## All markets -/

theorem gain_setState
    (hafter : c' = (c.setState market listing state).setMemberships memberships)
    (hget : c.markets.get? market = some listing) :
    c.gain c' account prices market =
      c'.gainIn account market listing { listing with state } (prices.units market) := by
  have hget' := get?_setState_self c market listing state memberships
  rw [← hafter] at hget'
  unfold gain
  rw [hget, hget']

/-- Nothing is gained at the same exchange rate. -/
theorem gain_eq_zero (hafter : c' = (c.setState market listing state).setMemberships memberships)
    (hget : c.markets.get? market = some listing) (hrate : c'.rate? market = c.rate? market) :
    c.gain c' account prices market = 0 := by
  have hrate' : state.rate = listing.state.rate := by
    unfold rate? at hrate
    rw [hafter, get?_setState_self, hget] at hrate
    exact Option.some.inj hrate
  have hvalue : ∀ price, Listing.tokenValue { listing with state } price =
      listing.tokenValue price := by
    intro price
    unfold Listing.tokenValue
    rw [hrate']
  rw [gain_setState hafter hget, gainIn, worthIn_none, hvalue]
  split
  next => exact Nat.sub_self _
  next => exact Nat.zero_sub _

/-- Only the market that is changed has to be looked at. -/
theorem Realizes.of_setState
    (hafter : c' = (c.setState change.market listing state).setMemberships memberships)
    (hget : c.markets.get? change.market = some listing)
    (hmember : ∀ other, change.market ≠ other →
      (c.setMemberships memberships).isMember account other = c.isMember account other)
    (hforeseen : ∀ price, Foreseen account change c c' listing { listing with state } price) :
    c.Realizes account prices change c' := by
  have hget' := get?_setState_self c change.market listing state memberships
  have hgain : c.gain c' account prices change.market = _ := gain_setState hafter hget
  have hunmoved : _ → c.gain c' account prices change.market = 0 := gain_eq_zero hafter hget
  subst hafter
  refine ⟨rfl, known_setState state hget, ?_, ?_, hunmoved⟩ <;> intro other <;>
    by_cases heq : other = change.market
  · rw [heq, if_pos rfl, if_pos rfl, hgain, worth_eq hget, burden_eq hget, worth_eq hget',
      burden_eq hget', at?_self]
    exact (hforeseen _).judged_le
  · rw [worth_some_of_ne heq, burden_some_of_ne heq, burden_setState_of_ne (Ne.symm heq),
      worth_setState_of_ne (Ne.symm heq) (hmember other (Ne.symm heq)), if_neg heq, if_neg heq]
  · rw [heq, if_pos rfl, hgain, worth_eq hget, burden_eq hget, worth_eq hget', burden_eq hget',
      at?_self]
    exact (hforeseen _).le_judged
  · rw [worth_some_of_ne heq, burden_some_of_ne heq, burden_setState_of_ne (Ne.symm heq),
      worth_setState_of_ne (Ne.symm heq) (hmember other (Ne.symm heq)), if_neg heq]
    exact Nat.le_refl _

theorem Realizes.of_made (memberships : Memberships)
    (hafter : c' = (c.setState change.market listing state).setMemberships memberships)
    (hget : c.markets.get? change.market = some listing)
    (hmember : ∀ other, change.market ≠ other →
      (c.setMemberships memberships).isMember account other = c.isMember account other)
    (hmade : Made account change c c' listing { listing with state }) :
    c.Realizes account prices change c' :=
  .of_setState hafter hget hmember fun _ => hmade.foreseen

theorem Realizes.of_not_counts
    (hafter : c' = (c.setState market listing state).setMemberships memberships)
    (hget : c.markets.get? market = some listing)
    (hmember : ∀ other, market ≠ other →
      (c.setMemberships memberships).isMember account other = c.isMember account other)
    (hcounts : ¬c'.Counts account market { listing with state } none)
    (hdebt : state.debtOf account = listing.state.debtOf account) :
    c.Realizes account prices
      { market, redeemTokens := listing.state.collateralTokens account } c' :=
  .of_setState hafter hget hmember fun _ => .of_not_counts hcounts hdebt

end Controller

end MoneyMarket
