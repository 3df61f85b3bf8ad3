import Mathlib.Algebra.BigOperators.Group.Finset.Basic
import Mathlib.Algebra.GroupWithZero.Nat
import MoneyMarket.Controller.Gates
import MoneyMarket.Proofs.Entries
import MoneyMarket.Proofs.Market.Figures

/-! # What accounts are worth and what burdens them

Each market adds something to what an account has available and to what is
required of it. These figures exist for all markets, whether or not their
prices do, and are zero in markets that do not bear on the account. Where the
liquidity of an account can be computed it is the difference of their sums
over all markets.
-/

namespace MoneyMarket

open Finset Market

variable {c : Controller} {account : AccountId} {market : MarketId} {prices : Prices}
  {change : Option Hypothetical} {listing : Listing}

/-- The surplus less the shortfall. -/
def Liquidity.net (l : Liquidity) : Int := l.surplus.toNat - l.shortfall.toNat

/-- The units of the price of a market, zero without a price. -/
def Prices.units (prices : Prices) (market : MarketId) : Nat :=
  (prices.price? market).elim 0 fun price => price.mantissa.toNat

/-- There is no quote for a market, or one that says zero. -/
def Prices.Unpriced (prices : Prices) (market : MarketId) : Prop :=
  ∀ quote, prices.quote? market = some quote → quote.price = 0

theorem Prices.unpriced_iff : prices.Unpriced market ↔ prices.price? market = none := by
  unfold Unpriced price?
  simp [Option.filter_eq_none_iff, Quote.isAvailable]

/-- The units of what a market token counts for at a price. -/
def Listing.tokenValue (l : Listing) (price : Nat) : Nat :=
  l.policy.collateralFactor.mantissa.toNat * l.state.rate / 10 ^ 18 * price / 10 ^ 18

namespace Hypothetical

/-- The change as far as it is one of the given market. -/
def at? (change : Option Hypothetical) (market : MarketId) : Option Hypothetical :=
  change.filter fun a => a.market = market

@[simp]
theorem at?_none (market : MarketId) : at? none market = none := rfl

theorem at?_self (a : Hypothetical) : at? (some a) a.market = some a := by
  simp [at?]

theorem at?_of_ne {a : Hypothetical} (hne : market ≠ a.market) : at? (some a) market = none := by
  simp [at?, hne.symm]

def borrowed (change : Option Hypothetical) : Nat := change.elim 0 fun a => a.borrowAmount.toNat

def redeemed (change : Option Hypothetical) : Nat := change.elim 0 fun a => a.redeemTokens.toNat

def entered (change : Option Hypothetical) : Option Amount := change.bind enteringCollateral

end Hypothetical

open Hypothetical

namespace Controller

/-- Whether collateral in a market counts for an account. -/
def Counts (c : Controller) (account : AccountId) (market : MarketId) (listing : Listing)
    (entering : Option Amount) : Prop :=
  c.isCreditAccount account = false ∧ listing.policy.isListed = true ∧
    (c.isMember account market = true ∨ entering.isSome = true)

instance {entering : Option Amount} : Decidable (c.Counts account market listing entering) := by
  unfold Counts
  infer_instance

/-- What the tokens of an account are worth in a market, after a change there. -/
def worthIn (c : Controller) (account : AccountId) (market : MarketId) (listing : Listing)
    (change : Option Hypothetical) (price : Nat) : Nat :=
  if c.Counts account market listing (entered change) then
    listing.tokenValue price *
      ((entered change).getD (listing.state.collateralTokens account)).toNat / 10 ^ 18
  else 0

/-- What is required of an account in a market, after a change there. -/
def burdenIn (c : Controller) (account : AccountId) (market : MarketId) (listing : Listing)
    (change : Option Hypothetical) (price : Nat) : Nat :=
  price * listing.state.debtOf account / 10 ^ 18 + price * borrowed change / 10 ^ 18 +
    if c.Counts account market listing (entered change) then
      listing.tokenValue price * redeemed change / 10 ^ 18
    else 0

/-- What a market adds to what an account has available. -/
def worth (c : Controller) (account : AccountId) (change : Option Hypothetical) (prices : Prices)
    (market : MarketId) : Nat :=
  (c.markets.get? market).elim 0 fun listing =>
    c.worthIn account market listing (at? change market) (prices.units market)

/-- What a market adds to what is required of an account. -/
def burden (c : Controller) (account : AccountId) (change : Option Hypothetical)
    (prices : Prices) (market : MarketId) : Nat :=
  (c.markets.get? market).elim 0 fun listing =>
    c.burdenIn account market listing (at? change market) (prices.units market)

/-- The markets there are, listed or not. -/
def known (c : Controller) : Finset MarketId := c.markets.keys.toFinset

/-- The credit limit of an account, or what its collateral is worth. -/
def available (c : Controller) (account : AccountId) (change : Option Hypothetical)
    (prices : Prices) : Nat :=
  (c.creditLimit? account).elim 0 Amount.toNat + ∑ k ∈ c.known, c.worth account change prices k

def required (c : Controller) (account : AccountId) (change : Option Hypothetical)
    (prices : Prices) : Nat :=
  ∑ k ∈ c.known, c.burden account change prices k

theorem mem_known : market ∈ c.known ↔ ∃ listing, c.markets.get? market = some listing := by
  unfold known Registry.keys
  simp only [List.mem_toFinset, List.mem_map, Prod.exists, exists_and_right, exists_eq_right,
    Registry.get?_eq_some_iff]

/-! ## One market -/

theorem worth_eq (hget : c.markets.get? market = some listing) :
    c.worth account change prices market =
      c.worthIn account market listing (at? change market) (prices.units market) := by
  unfold worth
  rw [hget]
  rfl

theorem burden_eq (hget : c.markets.get? market = some listing) :
    c.burden account change prices market =
      c.burdenIn account market listing (at? change market) (prices.units market) := by
  unfold burden
  rw [hget]
  rfl

/-- A change of one market leaves the figures of the others. -/
theorem worth_some_of_ne {a : Hypothetical} (hne : market ≠ a.market) :
    c.worth account (some a) prices market = c.worth account none prices market := by
  unfold worth
  rw [at?_of_ne hne, at?_none]

theorem burden_some_of_ne {a : Hypothetical} (hne : market ≠ a.market) :
    c.burden account (some a) prices market = c.burden account none prices market := by
  unfold burden
  rw [at?_of_ne hne, at?_none]

theorem worthIn_none (c : Controller) (account : AccountId) (market : MarketId)
    (listing : Listing) (price : Nat) :
    c.worthIn account market listing none price =
      if c.Counts account market listing none then
        listing.tokenValue price * (listing.state.collateralTokens account).toNat / 10 ^ 18
      else 0 := rfl

theorem worthIn_some (c : Controller) (account : AccountId) (market : MarketId)
    (listing : Listing) (a : Hypothetical) (price : Nat) :
    c.worthIn account market listing (some a) price =
      if c.Counts account market listing a.enteringCollateral then
        listing.tokenValue price *
          (a.enteringCollateral.getD (listing.state.collateralTokens account)).toNat / 10 ^ 18
      else 0 := rfl

theorem burdenIn_some (c : Controller) (account : AccountId) (market : MarketId)
    (listing : Listing) (a : Hypothetical) (price : Nat) :
    c.burdenIn account market listing (some a) price =
      price * listing.state.debtOf account / 10 ^ 18 + price * a.borrowAmount.toNat / 10 ^ 18 +
        if c.Counts account market listing a.enteringCollateral then
          listing.tokenValue price * a.redeemTokens.toNat / 10 ^ 18
        else 0 := rfl

/-- Without a change, debts are what burdens. -/
theorem burdenIn_none (c : Controller) (account : AccountId) (market : MarketId)
    (listing : Listing) (price : Nat) :
    c.burdenIn account market listing none price =
      price * listing.state.debtOf account / 10 ^ 18 := by
  simp [burdenIn, borrowed, redeemed]

theorem burden_none (c : Controller) (account : AccountId) (prices : Prices) (market : MarketId) :
    c.burden account none prices market =
      (c.markets.get? market).elim 0 fun listing =>
        prices.units market * listing.state.debtOf account / 10 ^ 18 := by
  unfold burden
  cases c.markets.get? market with
  | none => rfl
  | some listing => exact burdenIn_none ..

theorem priceOf_eq_ok {price : Wad} (hprice : priceOf prices market = .ok price) :
    prices.units market = price.mantissa.toNat := by
  unfold priceOf at hprice
  unfold Prices.units
  split at hprice
  next p hp =>
    cases hprice
    rw [hp]
    rfl
  next => cases hprice

theorem not_counts_iff {entering : Option Amount} :
    (c.isCreditAccount account || !listing.policy.isListed ||
      !c.isMember account market && entering.isNone) = true ↔
        ¬c.Counts account market listing entering := by
  unfold Counts
  cases c.isCreditAccount account <;> cases listing.policy.isListed <;>
    cases c.isMember account market <;> cases entering <;> simp

theorem not_counts_of_not_member (hmember : c.isMember account market = false) :
    ¬c.Counts account market listing none := by
  rintro ⟨-, -, hcontra | hentering⟩
  · rw [hmember] at hcontra
    cases hcontra
  · cases hentering

/-- A hypothetical change adds to a sum what it comes to. -/
theorem adjust_eq_ok {β : Type} {adjusted : Option Hypothetical} {value : Wad}
    {figure : Hypothetical → Amount} {sum : Amount} {f : Amount → Except ControllerError β} {b : β}
    (hadjust : (match adjusted with
      | some a => liftM (value.mulTruncateAdd (figure a) sum) >>= f
      | none => pure sum >>= f) = .ok b) :
    ∃ sum', f sum' = .ok b ∧ sum'.toNat =
      value.mantissa.toNat * (adjusted.elim 0 fun a => (figure a).toNat) / 10 ^ 18 + sum.toNat := by
  cases adjusted with
  | none => exact ⟨sum, hadjust, by simp⟩
  | some a =>
      simp only [bind_eq_ok, liftM_controller_eq_ok] at hadjust
      obtain ⟨sum', hsum', hf⟩ := hadjust
      exact ⟨sum', hf, Wad.mulTruncateAdd_eq_ok hsum'⟩

/-- A market is added to the sums if it is known and has a price. -/
theorem addMarket_eq_ok {sums sums' : Sums}
    (hadd : c.addMarket account change prices sums market = .ok sums') :
    market ∈ c.known ∧
      sums'.collateral.toNat = c.worth account change prices market + sums.collateral.toNat ∧
      sums'.required.toNat = c.burden account change prices market + sums.required.toNat := by
  unfold addMarket at hadd
  rw [mem_known]
  cases hget : c.markets.get? market with
  | none => simp only [hget, guard_eq_ok, throw_ne_ok, and_false] at hadd
  | some listing =>
      rw [worth_eq hget, burden_eq hget]
      unfold worthIn burdenIn at? borrowed redeemed entered
      -- a change of another market is none here
      generalize change.filter (fun a => decide (a.market = market)) = adjusted at hadd ⊢
      simp only [hget, bind_eq_ok, liftM_controller_eq_ok] at hadd
      obtain ⟨price, hprice, position, hposition, debt, hdebt, hadjusted⟩ := hadd
      obtain ⟨owed, hcollateral, howed⟩ := adjust_eq_ok hadjusted
      obtain ⟨hposition_collateral, hposition_debt, hposition_rate⟩ := position_eq_ok hposition
      have hdebt := Wad.mulTruncateAdd_eq_ok hdebt
      refine ⟨⟨listing, rfl⟩, ?_⟩
      rw [priceOf_eq_ok hprice, ← hposition_debt, ← hposition_collateral]
      split at hcollateral
      next hno =>
        rw [if_neg (not_counts_iff.mp hno), if_neg (not_counts_iff.mp hno)]
        cases pure_eq_ok.mp hcollateral
        refine ⟨(Nat.zero_add _).symm, ?_⟩
        dsimp only
        omega
      next hno =>
        have hcounts : c.Counts account market listing (adjusted.bind enteringCollateral) := by
          by_contra hcontra
          exact hno (not_counts_iff.mpr hcontra)
        simp only [bind_eq_ok, liftM_controller_eq_ok] at hcollateral
        obtain ⟨underlying, hunderlying, value, hvalue, collateral, hworth, hredeemed⟩ :=
          hcollateral
        obtain ⟨required, hsums, hrequired⟩ := adjust_eq_ok hredeemed
        cases pure_eq_ok.mp hsums
        have hvalue' : value.mantissa.toNat = listing.tokenValue price.mantissa.toNat := by
          unfold Listing.tokenValue
          rw [Wad.mul_eq_ok hvalue, Wad.mul_eq_ok hunderlying, hposition_rate]
        rw [if_pos hcounts, if_pos hcounts, ← hvalue']
        refine ⟨Wad.mulTruncateAdd_eq_ok hworth, ?_⟩
        dsimp only
        omega

theorem exists_price_of_addMarket {sums sums' : Sums}
    (hadd : c.addMarket account change prices sums market = .ok sums') :
    ∃ listing price, c.markets.get? market = some listing ∧
      priceOf prices market = .ok price := by
  unfold addMarket at hadd
  cases hget : c.markets.get? market with
  | none => simp only [hget, guard_eq_ok, throw_ne_ok, and_false] at hadd
  | some listing =>
      simp only [hget, bind_eq_ok] at hadd
      obtain ⟨price, hprice, -⟩ := hadd
      exact ⟨listing, price, rfl, hprice⟩

/-! ## All markets -/

theorem foldlM_addMarket_eq_ok {markets : List MarketId} {sums sums' : Sums}
    (hfold : markets.foldlM (c.addMarket account change prices) sums = .ok sums') :
    (∀ k ∈ markets, k ∈ c.known) ∧
      sums'.collateral.toNat =
        (markets.map (c.worth account change prices)).sum + sums.collateral.toNat ∧
      sums'.required.toNat =
        (markets.map (c.burden account change prices)).sum + sums.required.toNat := by
  induction markets generalizing sums with
  | nil =>
      cases pure_eq_ok.mp hfold
      simp
  | cons market rest ih =>
      rw [List.foldlM_cons, bind_eq_ok] at hfold
      obtain ⟨next, hadd, hrest⟩ := hfold
      obtain ⟨hknown, hcollateral, hrequired⟩ := addMarket_eq_ok hadd
      obtain ⟨hrest_known, hrest_collateral, hrest_required⟩ := ih hrest
      simp only [List.map_cons, List.sum_cons, List.forall_mem_cons]
      exact ⟨⟨hknown, hrest_known⟩, by omega, by omega⟩

theorem mem_exposure : market ∈ c.exposure account ↔ c.isMember account market = true ∨
    ∃ listing, c.markets.get? market = some listing ∧ listing.state.hasDebt account = true := by
  unfold exposure isMember
  simp only [Name.mem_sortDistinct, List.mem_append, List.mem_map, List.mem_filter, Prod.exists,
    List.contains_iff_mem, exists_and_right, exists_eq_right, Registry.get?_eq_some_iff]

theorem pairwise_exposureAfter : (c.exposureAfter account change).Pairwise Name.Before := by
  unfold exposureAfter exposure
  cases change with
  | none => exact Name.pairwise_sortDistinct _
  | some a => exact Name.pairwise_insertDistinct (Name.pairwise_sortDistinct _)

/-- As the markets stand in order, they are known by which they are. -/
theorem exposureAfter_ext {c' : Controller} {change' : Option Hypothetical}
    (hmem : ∀ k, k ∈ c'.exposureAfter account change' ↔ k ∈ c.exposureAfter account change) :
    c'.exposureAfter account change' = c.exposureAfter account change :=
  Name.eq_of_mem_iff pairwise_exposureAfter pairwise_exposureAfter hmem

theorem nodup_exposureAfter : (c.exposureAfter account change).Nodup :=
  pairwise_exposureAfter.imp fun hbefore => hbefore.ne

/-- Markets that do not bear on an account neither are worth anything to it
nor burden it. -/
theorem worth_burden_eq_zero (hmarket : market ∉ c.exposureAfter account change) :
    c.worth account change prices market = 0 ∧ c.burden account change prices market = 0 := by
  have hexposure : market ∉ c.exposure account ∧ at? change market = none := by
    unfold exposureAfter at hmarket
    cases change with
    | none => exact ⟨hmarket, rfl⟩
    | some a =>
        simp only [Name.mem_insertDistinct, not_or] at hmarket
        exact ⟨hmarket.2, Option.filter_eq_none_iff.mpr fun a' ha' => by
          cases ha'
          simpa using Ne.symm hmarket.1⟩
  obtain ⟨hno, hat⟩ := hexposure
  rw [mem_exposure, not_or] at hno
  cases hget : c.markets.get? market with
  | none => exact ⟨by simp [worth, hget], by simp [burden, hget]⟩
  | some listing =>
      have hcounts : ¬c.Counts account market listing none :=
        not_counts_of_not_member (Bool.eq_false_iff.mpr hno.1)
      have hdebt : listing.state.debtOf account = 0 :=
        debtOf_eq_zero (Bool.eq_false_iff.mpr fun howes => hno.2 ⟨listing, hget, howes⟩)
      rw [worth_eq hget, burden_eq hget, hat]
      simp [worthIn, burdenIn, entered, borrowed, hcounts, hdebt]

/-- Only the markets that bear on an account have to be visited. -/
theorem sum_exposureAfter {f : MarketId → Nat}
    (hknown : ∀ k ∈ c.exposureAfter account change, k ∈ c.known)
    (hzero : ∀ k ∉ c.exposureAfter account change, f k = 0) :
    ((c.exposureAfter account change).map f).sum = ∑ k ∈ c.known, f k := by
  rw [← List.sum_toFinset f nodup_exposureAfter]
  apply sum_subset
  · intro k hk
    exact hknown k (List.mem_toFinset.mp hk)
  · intro k _ hk
    exact hzero k fun hmem => hk (List.mem_toFinset.mpr hmem)

/-- Nothing counts as collateral of an account on credit. -/
theorem worth_eq_zero_of_isCreditAccount (hcredit : c.isCreditAccount account = true)
    (market : MarketId) : c.worth account change prices market = 0 := by
  have hcounts : ∀ listing entering, ¬c.Counts account market listing entering := by
    rintro listing entering ⟨hno, -⟩
    rw [hcredit] at hno
    cases hno
  unfold worth
  cases c.markets.get? market with
  | none => rfl
  | some listing => exact if_neg (hcounts listing _)

/-- Where the liquidity can be computed, it compares the sums over all markets. -/
theorem liquidityAfter_eq_ok {l : Liquidity}
    (hl : c.liquidityAfter account change prices = .ok l) :
    l.surplus.toNat = c.available account change prices - c.required account change prices ∧
      l.shortfall.toNat =
        c.required account change prices - c.available account change prices := by
  simp only [liquidityAfter, bind_eq_ok, pure_eq_ok] at hl
  obtain ⟨sums, hsums, rfl⟩ := hl
  obtain ⟨hknown, hcollateral, hrequired⟩ := foldlM_addMarket_eq_ok hsums
  rw [sum_exposureAfter hknown fun k hk => (worth_burden_eq_zero hk).1] at hcollateral
  rw [sum_exposureAfter hknown fun k hk => (worth_burden_eq_zero hk).2] at hrequired
  have havailable : ((c.creditLimit? account).getD sums.collateral).toNat =
      c.available account change prices := by
    unfold available
    cases hlimit : c.creditLimit? account with
    | none =>
        rw [Option.elim_none, Nat.zero_add]
        exact hcollateral
    | some limit =>
        have hcredit : c.isCreditAccount account = true := by simp [isCreditAccount, hlimit]
        rw [sum_eq_zero fun k _ => worth_eq_zero_of_isCreditAccount hcredit k]
        rfl
  have hrequired : sums.required.toNat = c.required account change prices := hrequired
  rw [← havailable, ← hrequired]
  exact ⟨rfl, rfl⟩

theorem known_of_liquidityAfter {l : Liquidity}
    (hl : c.liquidityAfter account change prices = .ok l)
    (hmarket : market ∈ c.exposureAfter account change) : market ∈ c.known := by
  simp only [liquidityAfter, bind_eq_ok] at hl
  obtain ⟨sums, hsums, -⟩ := hl
  exact (foldlM_addMarket_eq_ok hsums).1 market hmarket

/-- All markets that bear on an account have a price where its liquidity can be computed. -/
theorem exists_price_of_liquidityAfter {l : Liquidity}
    (hl : c.liquidityAfter account change prices = .ok l)
    (hmarket : market ∈ c.exposureAfter account change) :
    ∃ price, priceOf prices market = .ok price := by
  simp only [liquidityAfter, bind_eq_ok] at hl
  obtain ⟨sums, hsums, -⟩ := hl
  generalize (⟨0, 0⟩ : Sums) = start at hsums
  generalize c.exposureAfter account change = markets at hsums hmarket
  induction markets generalizing start with
  | nil => cases hmarket
  | cons first rest ih =>
      rw [List.foldlM_cons, bind_eq_ok] at hsums
      obtain ⟨next, hadd, hrest⟩ := hsums
      rcases List.mem_cons.mp hmarket with rfl | hmem
      · obtain ⟨-, price, -, hprice⟩ := exists_price_of_addMarket hadd
        exact ⟨price, hprice⟩
      · exact ih next hrest hmem

theorem net_eq {l : Liquidity} (hl : c.liquidityAfter account change prices = .ok l) :
    l.net = c.available account change prices - c.required account change prices := by
  obtain ⟨hsurplus, hshortfall⟩ := liquidityAfter_eq_ok hl
  unfold Liquidity.net
  omega

end Controller

end MoneyMarket
