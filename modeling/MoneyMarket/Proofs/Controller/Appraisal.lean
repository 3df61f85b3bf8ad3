import MoneyMarket.Proofs.Controller.Booking
import MoneyMarket.Proofs.Controller.Debts
import MoneyMarket.Proofs.Controller.Enrolment

/-! # What the liquidity of an account is

The liquidity of an account can be written down without the loop that computes
it. Available is the credit limit, or the collateral in the listed markets that
the account has entered. Required are its debts in all markets, and what a
hypothetical redemption and borrow come to. Each market that bears on the
account counts once. If one of them has no price there is no liquidity either,
and nothing else but an overflow stands in the way.
-/

namespace MoneyMarket

open Controller Finset Hypothetical

variable {c : Controller} {account : AccountId} {market : MarketId} {prices : Prices}
  {change : Option Hypothetical} {listing : Listing}

namespace Controller

/-! ## Figures of an account -/

/-- Whether an account owes in a market, listed or not. -/
def owesIn (c : Controller) (account : AccountId) (market : MarketId) : Bool :=
  (c.markets.get? market).any fun listing => listing.state.hasDebt account

/-- The markets that an account has entered, and those that it owes in. -/
def bearing (c : Controller) (account : AccountId) : Finset MarketId :=
  (c.marketsOf account).toFinset ∪ c.known.filter fun k => c.owesIn account k

/-- What an account owes in a market. -/
def debtIn (c : Controller) (account : AccountId) (market : MarketId) : Nat :=
  (c.markets.get? market).elim 0 fun listing => listing.state.debtOf account

/-- The tokens of an account that count as collateral in a market. -/
def collateralIn (c : Controller) (account : AccountId) (market : MarketId) : Nat :=
  (c.markets.get? market).elim 0 fun listing => (listing.state.collateralTokens account).toNat

/-- The units of what a token of a market counts for. -/
def tokenValue (c : Controller) (prices : Prices) (market : MarketId) : Nat :=
  (c.markets.get? market).elim 0 fun listing => listing.tokenValue (prices.units market)

/-- The credit limit of an account, or what its collateral is worth in the listed
markets that it has entered. -/
def means (c : Controller) (account : AccountId) (prices : Prices) : Nat :=
  (c.creditLimit? account).elim
    (∑ k ∈ c.known with c.isListed k = true ∧ c.isMember account k = true,
      c.tokenValue prices k * c.collateralIn account k / 10 ^ 18)
    Amount.toNat

/-- What the debts of an account in some markets come to. -/
def debts (c : Controller) (account : AccountId) (prices : Prices) (markets : Finset MarketId) :
    Nat :=
  ∑ k ∈ markets, prices.units k * c.debtIn account k / 10 ^ 18

/-- What a hypothetical redemption and borrow come to. Redeemed tokens matter only
where they count. -/
def changeBurden (c : Controller) (account : AccountId) (prices : Prices) (market : MarketId)
    (redeemTokens borrowAmount : Amount) : Nat :=
  prices.units market * borrowAmount.toNat / 10 ^ 18 +
    if c.creditLimit? account = none ∧ c.isListed market = true ∧
        c.isMember account market = true then
      c.tokenValue prices market * redeemTokens.toNat / 10 ^ 18
    else 0

/-! ## The markets that bear on an account -/

theorem owesIn_iff : c.owesIn account market = true ↔
    ∃ listing, c.markets.get? market = some listing ∧ listing.state.hasDebt account = true := by
  simp [owesIn, Option.any_eq_true]

theorem mem_bearing : market ∈ c.bearing account ↔ market ∈ c.exposure account := by
  rw [mem_exposure, bearing, mem_union, List.mem_toFinset, mem_filter, isMember_iff, owesIn_iff,
    mem_known]
  constructor
  · exact Or.imp_right And.right
  · exact Or.imp_right fun howes => ⟨howes.imp fun _ => And.left, howes⟩

theorem Enrolled.bearing_subset_known (hc : c.Enrolled) (account : AccountId) :
    c.bearing account ⊆ c.known :=
  fun _ hk => hc.known_of_mem_exposure (mem_bearing.mp hk)

/-- Nothing is owed outside. -/
theorem debtIn_eq_zero (hmarket : market ∉ c.bearing account) : c.debtIn account market = 0 := by
  rw [mem_bearing, mem_exposure, not_or] at hmarket
  unfold debtIn
  cases hget : c.markets.get? market with
  | none => rfl
  | some listing =>
      exact Market.debtOf_eq_zero
        (Bool.eq_false_iff.mpr fun howes => hmarket.2 ⟨listing, hget, howes⟩)

/-! ## The sums over all markets -/

theorem counts_none_iff (hget : c.markets.get? market = some listing) :
    c.Counts account market listing none ↔
      c.creditLimit? account = none ∧ c.isListed market = true ∧
        c.isMember account market = true := by
  simp [Counts, isCreditAccount, isListed, listed?, hget]

theorem worth_eq_ite (hentered : entered change = none) (hmarket : market ∈ c.known) :
    c.worth account change prices market =
      if c.creditLimit? account = none ∧ c.isListed market = true ∧
          c.isMember account market = true then
        c.tokenValue prices market * c.collateralIn account market / 10 ^ 18
      else 0 := by
  obtain ⟨listing, hget⟩ := mem_known.mp hmarket
  have hhere : entered (at? change market) = none := by
    rw [entered, Option.bind_eq_none_iff] at hentered ⊢
    exact fun a ha => hentered a (Option.filter_eq_some_iff.mp ha).1
  rw [worth_eq hget, worthIn, hhere, if_congr (counts_none_iff hget) rfl rfl]
  simp [tokenValue, collateralIn, hget]

/-- Unless it enters a market, an account has its credit limit or its collateral
available. -/
theorem available_eq_means (hentered : entered change = none) :
    c.available account change prices = c.means account prices := by
  unfold available means
  rw [sum_congr rfl fun k hk => worth_eq_ite hentered hk]
  cases c.creditLimit? account with
  | none => simp [sum_filter]
  | some limit => simp

theorem burden_none_eq (c : Controller) (account : AccountId) (prices : Prices)
    (market : MarketId) :
    c.burden account none prices market =
      prices.units market * c.debtIn account market / 10 ^ 18 := by
  rw [burden_none, debtIn]
  cases c.markets.get? market <;> simp

/-- Each debt counts once. -/
theorem required_none_eq_debts {markets : Finset MarketId} (hmarkets : markets ⊆ c.known)
    (hbearing : c.bearing account ⊆ markets) :
    c.required account none prices = c.debts account prices markets := by
  unfold required debts
  rw [sum_congr rfl fun k _ => burden_none_eq c account prices k]
  refine (sum_subset hmarkets fun k _ hk => ?_).symm
  rw [debtIn_eq_zero fun hmem => hk (hbearing hmem), Nat.mul_zero, Nat.zero_div]

theorem burden_some_eq {redeemTokens borrowAmount : Amount} {k : MarketId} (hk : k ∈ c.known) :
    c.burden account (some { market, redeemTokens, borrowAmount }) prices k =
      c.burden account none prices k +
        if k = market then c.changeBurden account prices market redeemTokens borrowAmount
        else 0 := by
  by_cases heq : k = market
  · subst heq
    obtain ⟨listing, hget⟩ := mem_known.mp hk
    have hat : at? (some { market := k, redeemTokens, borrowAmount }) k =
        some { market := k, redeemTokens, borrowAmount } := at?_self _
    rw [if_pos rfl, burden_none_eq, burden_eq hget, hat, burdenIn_some, changeBurden,
      if_congr (counts_none_iff hget) rfl rfl, Nat.add_assoc]
    simp [debtIn, tokenValue, hget]
  · rw [burden_some_of_ne heq, if_neg heq, Nat.add_zero]

/-- The changed market adds what the change comes to. -/
theorem required_some_eq {redeemTokens borrowAmount : Amount} (hmarket : market ∈ c.known) :
    c.required account (some { market, redeemTokens, borrowAmount }) prices =
      c.required account none prices +
        c.changeBurden account prices market redeemTokens borrowAmount := by
  unfold required
  rw [sum_congr rfl fun k hk => burden_some_eq hk, sum_add_distrib, sum_ite_eq', if_pos hmarket]

/-- Without all prices there is no figure. -/
theorem liquidityAfter_fails (hmarket : market ∈ c.exposureAfter account change)
    (hprice : prices.Unpriced market) :
    ∃ e, c.liquidityAfter account change prices = .error e := by
  cases hl : c.liquidityAfter account change prices with
  | error e => exact ⟨e, rfl⟩
  | ok l =>
      obtain ⟨price, hprice'⟩ := exists_price_of_liquidityAfter hl hmarket
      simp [priceOf, Prices.unpriced_iff.mp hprice] at hprice'

/-! ## The queries -/

/-- What a query for the liquidity of an account answers that looks at some
markets, where the account owes and something more is required of it. -/
structure Appraises (c : Controller) (account : AccountId) (prices : Prices)
    (markets : Finset MarketId) (more : Nat) (answer : Except ControllerError Liquidity) :
    Prop where
  /-- Without all prices there is no figure. -/
  fails : ∀ k ∈ markets, prices.Unpriced k → ∃ e, answer = .error e
  /-- Nothing else but an overflow stands in the way. -/
  causes : ∀ e, answer = .error e →
    e = .arithmetic .overflow ∨ ∃ k ∈ markets, prices.Unpriced k ∧ e = .priceUnavailable k
  oneSided : ∀ l, answer = .ok l → l.surplus = 0 ∨ l.shortfall = 0
  net : ∀ l, answer = .ok l →
    l.net = (c.means account prices : Int) - (c.debts account prices markets + more : Nat)

theorem Appraises.of_liquidityAfter {markets : Finset MarketId} {more : Nat} (hc : c.Sound)
    (hmarkets : ∀ k, k ∈ c.exposureAfter account change ↔ k ∈ markets)
    (hknown : markets ⊆ c.known) (hentered : entered change = none)
    (hrequired : c.required account change prices = c.debts account prices markets + more) :
    c.Appraises account prices markets more (c.liquidityAfter account change prices) where
  fails := fun k hk => liquidityAfter_fails ((hmarkets k).mpr hk)
  causes := by
    intro e herror
    rcases liquidityAfter_eq_error hc (fun k hk => hknown ((hmarkets k).mp hk)) herror with
      hoverflow | ⟨k, hk, hprice⟩
    · exact .inl hoverflow
    · exact .inr ⟨k, (hmarkets k).mp hk, hprice⟩
  oneSided := by
    intro l hl
    obtain ⟨hsurplus, hshortfall⟩ := liquidityAfter_eq_ok hl
    rw [Amount.eq_zero_iff, Amount.eq_zero_iff]
    omega
  net := by
    intro l hl
    rw [net_eq hl, available_eq_means hentered, hrequired]

/-- In a reachable controller the liquidity of an account compares its means with
its debts, counting each market that bears on it once, and with what a
hypothetical redemption and borrow come to in a known market. -/
theorem Reachable.liquidity_appraises (hc : c.Reachable) :
    (∀ account market redeemTokens borrowAmount prices, market ∈ c.known →
      c.Appraises account prices (insert market (c.bearing account))
        (c.changeBurden account prices market redeemTokens borrowAmount)
        (c.liquidityIf account market redeemTokens borrowAmount prices)) ∧
    ∀ account prices,
      c.Appraises account prices (c.bearing account) 0 (c.liquidity account prices) := by
  have hsound := hc.sound
  have hknown := hc.enrolled.bearing_subset_known
  constructor
  · intro account market redeemTokens borrowAmount prices hmarket
    have hmarkets := insert_subset hmarket (hknown account)
    refine .of_liquidityAfter hsound ?_ hmarkets rfl ?_
    · intro k
      rw [exposureAfter, Name.mem_insertDistinct, mem_insert, mem_bearing]
    · rw [required_some_eq hmarket,
        required_none_eq_debts hmarkets (subset_insert market (c.bearing account))]
  · intro account prices
    refine .of_liquidityAfter hsound (fun k => mem_bearing.symm) (hknown account) rfl ?_
    rw [required_none_eq_debts (hknown account) subset_rfl, Nat.add_zero]

/-- Half of the collateral is borrowed, eight tenths of it count, and one tenth is
redeemed. With a price of the borrowed underlying alone nothing can be said. -/
theorem lentSample_liquidity_appraises :
    ⟨"jETH"⟩ ∈ lentSample.known ∧
      (∃ l, lentSample.liquidityIf ⟨"bob"⟩ ⟨"jETH"⟩ (.ofUInt64 10) 0 bothPrices = .ok l ∧
        (l.surplus = 0 ∨ l.shortfall = 0) ∧ l.net = (80 : Int) - (50 + 8 : Nat)) ∧
      samplePrices.Unpriced ⟨"jETH"⟩ ∧
      ∃ e, lentSample.liquidity ⟨"bob"⟩ samplePrices = .error e := by
  have hknown : ⟨"jETH"⟩ ∈ lentSample.known := by decide +kernel
  obtain ⟨hchanged, hunchanged⟩ := lentSample_reachable.liquidity_appraises
  have hunpriced : samplePrices.Unpriced ⟨"jETH"⟩ := Prices.unpriced_iff.mpr (by decide +kernel)
  refine ⟨hknown, ?_, hunpriced, ?_⟩
  · have happraises := hchanged ⟨"bob"⟩ ⟨"jETH"⟩ (.ofUInt64 10) 0 bothPrices hknown
    have hok : lentSample.liquidityIf ⟨"bob"⟩ ⟨"jETH"⟩ (.ofUInt64 10) 0 bothPrices =
        .ok ⟨.ofUInt64 22, 0⟩ := by decide +kernel
    have hmeans : lentSample.means ⟨"bob"⟩ bothPrices = 80 := by decide +kernel
    have hdebts : lentSample.debts ⟨"bob"⟩ bothPrices
        (insert ⟨"jETH"⟩ (lentSample.bearing ⟨"bob"⟩)) = 50 := by decide +kernel
    have hburden : lentSample.changeBurden ⟨"bob"⟩ bothPrices ⟨"jETH"⟩ (.ofUInt64 10) 0 = 8 := by
      decide +kernel
    have hnet := happraises.net _ hok
    rw [hmeans, hdebts, hburden] at hnet
    exact ⟨_, hok, happraises.oneSided _ hok, hnet⟩
  · exact (hunchanged ⟨"bob"⟩ samplePrices).fails ⟨"jETH"⟩ (by decide +kernel) hunpriced

end Controller

end MoneyMarket
