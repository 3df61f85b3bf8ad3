import MoneyMarket.Proofs.Controller.Entering
import MoneyMarket.Proofs.Controller.Solvency

/-! # Borrowing without collateral

What an account owes is priced market by market, and the fraction of a unit is
dropped each time. An account that has neither a credit limit nor tokens has
nothing available, so it can borrow only if nothing is required of it: if what
it borrows, and each of its debts, is worth less than a unit. It may do so
again and again at the same prices, until all that is required of it is one
unit.
-/

namespace MoneyMarket

open Controller Finset Hypothetical Operation

variable {c c' : Controller} {account : AccountId} {market other : MarketId} {amount : Amount}
  {now : UInt64} {prices : Prices} {events : List Event} {listing : Listing}

/-- An amount of the underlying of a market has a price, and is worth less than
one unit. -/
def Prices.BelowUnit (prices : Prices) (market : MarketId) (amount : Nat) : Prop :=
  ∃ price, priceOf prices market = .ok price ∧ price.mantissa.toNat * amount < 10 ^ 18

namespace Controller

/-- An account has no credit limit, and no tokens in a market nor in any that
it has entered. -/
structure Unsecured (c : Controller) (account : AccountId) (market : MarketId) : Prop where
  noCredit : c.creditLimit? account = none
  noTokens : ∀ other listing, other = market ∨ c.isMember account other = true →
    c.markets.get? other = some listing → listing.state.tokenBalance account = 0

namespace Unsecured

/-- Nothing of an account without tokens counts, unless it enters a market with
some. -/
theorem worth_eq_zero {change : Option Hypothetical} (hunsecured : c.Unsecured account market)
    (hsound : c.Sound) (hentering : ∀ tokens, entered change = some tokens → tokens = 0)
    (other : MarketId) : c.worth account change prices other = 0 := by
  cases hget : c.markets.get? other with
  | none => simp [worth, hget]
  | some listing =>
      rw [worth_eq hget, worthIn]
      split
      next hcounts =>
        have htokens : (entered (at? change other)).getD
            (listing.state.collateralTokens account) = 0 := by
          cases hentered : entered (at? change other) with
          | none =>
              rw [hentered] at hcounts
              have hmember := hcounts.2.2.resolve_right Bool.false_ne_true
              exact (hsound other listing hget).consistent.collateralTokens_eq_zero
                (hunsecured.noTokens other listing (.inr hmember) hget)
          | some tokens =>
              obtain ⟨a, ha, htokens⟩ := Option.bind_eq_some_iff.mp hentered
              have hchange := (Option.filter_eq_some_iff.mp ha).1
              exact hentering tokens (Option.bind_eq_some_iff.mpr ⟨a, hchange, htokens⟩)
        rw [htokens, Amount.toNat_zero, Nat.mul_zero, Nat.zero_div]
      next => rfl

theorem available_eq_zero {change : Option Hypothetical} (hunsecured : c.Unsecured account market)
    (hsound : c.Sound) (hentering : ∀ tokens, entered change = some tokens → tokens = 0) :
    c.available account change prices = 0 := by
  rw [available, hunsecured.noCredit, Option.elim_none, Nat.zero_add]
  exact sum_eq_zero fun k _ => hunsecured.worth_eq_zero hsound hentering k

/-- Changes of the market that leave the tokens of the account leave it unsecured,
whether or not it enters the market. -/
theorem setState {state : Market} (hunsecured : c.Unsecured account market)
    (memberships : Memberships) (hlisted : c.listed? market = some listing)
    (hbalance : state.tokenBalance account = listing.state.tokenBalance account)
    (hmember : ∀ other, market ≠ other →
      (c.setMemberships memberships).isMember account other = c.isMember account other) :
    ((c.setState market listing state).setMemberships memberships).Unsecured account market where
  noCredit := hunsecured.noCredit
  noTokens := by
    intro other found hother hget
    by_cases heq : market = other
    · subst heq
      rw [get?_setState_self] at hget
      cases hget
      exact hbalance.trans
        (hunsecured.noTokens market listing (.inl rfl) (listed?_eq_some.mp hlisted).1)
    · rw [get?_setState_of_ne _ _ _ _ heq] at hget
      have hentered : c.isMember account other = true :=
        (hmember other heq).symm.trans (hother.resolve_left (Ne.symm heq))
      exact hunsecured.noTokens other found (.inr hentered) hget

/-- A borrow by an unsecured account is judged with no tokens, and leaves it
unsecured. -/
theorem judged_of_borrow (hunsecured : c.Unsecured account market) (hsound : c.Sound)
    (hborrow : (borrow account market amount now prices).runOn c = (.ok events, c')) :
    c'.Unsecured account market ∧ ∃ change : Hypothetical,
      change.market = market ∧ change.borrowAmount = amount ∧
      (∀ tokens, change.enteringCollateral = some tokens → tokens = 0) ∧
      c.Realizes account prices change c' ∧
      ∃ l, c.liquidityAfter account (some change) prices = .ok l ∧ l.shortfall = 0 := by
  obtain ⟨listing, plan, hlisted, hplan, ⟨hmember, hverdict, rfl⟩ |
    ⟨-, state, registered, hregister, hverdict, rfl⟩⟩ := borrow_eq_ok hborrow
  · have hjudged := Judged.of_member_borrow hsound hlisted hmember hplan hverdict
    refine ⟨hunsecured.setState c.memberships hlisted rfl fun _ _ => rfl,
      { market, borrowAmount := amount }, rfl, rfl, ?_, hjudged.realizes,
      borrowVerdict_eq_allow hverdict⟩
    intro tokens htokens
    cases htokens
  · have hjudged := Judged.of_entering_borrow hsound hlisted hregister hplan hverdict
    have hregistered := (hsound.reachable_of_listed hlisted).performed hregister
    obtain ⟨kind, rfl⟩ := Market.state_of_register hregister
    refine ⟨hunsecured.setState _ hlisted rfl fun _ hne => isMember_enter_of_ne hne,
      _, rfl, rfl, ?_, hjudged.realizes, borrowVerdict_eq_allow hverdict⟩
    rintro tokens ⟨⟩
    -- registering leaves the balance
    exact hregistered.consistent.collateralTokens_eq_zero
      (hunsecured.noTokens market listing (.inl rfl) (listed?_eq_some.mp hlisted).1)

/-- With nothing available, nothing may be required, in any market. -/
theorem required_eq_zero {change : Hypothetical} {l : Liquidity}
    (hunsecured : c.Unsecured account market) (hsound : c.Sound)
    (hentering : ∀ tokens, change.enteringCollateral = some tokens → tokens = 0)
    (hl : c.liquidityAfter account (some change) prices = .ok l) (hsolvent : l.shortfall = 0) :
    c.required account (some change) prices = 0 := by
  obtain ⟨-, hshortfall⟩ := liquidityAfter_eq_ok hl
  have havailable : c.available account (some change) prices = 0 :=
    hunsecured.available_eq_zero hsound hentering
  rw [hsolvent, havailable, Amount.toNat_zero, Nat.sub_zero] at hshortfall
  exact hshortfall.symm

end Unsecured

/-- Where nothing is required, no market that bears on the account burdens it at
its price. -/
theorem exists_price_burdenIn_eq_zero {change : Hypothetical} {l : Liquidity}
    (hl : c.liquidityAfter account (some change) prices = .ok l)
    (hnothing : c.required account (some change) prices = 0)
    (hget : c.markets.get? other = some listing)
    (hother : other = change.market ∨ other ∈ c.exposure account) :
    ∃ price, priceOf prices other = .ok price ∧
      c.burdenIn account other listing (at? change other) price.mantissa.toNat = 0 := by
  obtain ⟨price, hprice⟩ := exists_price_of_liquidityAfter hl (Name.mem_insertDistinct.mpr hother)
  refine ⟨price, hprice, ?_⟩
  rw [← priceOf_eq_ok hprice, ← burden_eq hget]
  exact sum_eq_zero_iff.mp hnothing other (mem_known.mpr ⟨listing, hget⟩)

/-- An account without a credit limit that has no tokens, neither in a market nor in
those that it has entered, borrows from the market only if what it borrows is
worth less than a unit, and so is each of its debts. -/
theorem Reachable.unsecured_borrow_belowUnit (hc : c.Reachable)
    (hunsecured : c.Unsecured account market)
    (hborrow : (borrow account market amount now prices).runOn c = (.ok events, c')) :
    prices.BelowUnit market amount.toNat ∧
      ∀ other listing, c.markets.get? other = some listing →
        listing.state.hasDebt account = true →
        prices.BelowUnit other (listing.state.debtOf account) := by
  obtain ⟨-, change, rfl, rfl, hentering, -, l, hl, hsolvent⟩ :=
    hunsecured.judged_of_borrow hc.sound hborrow
  have hnothing := hunsecured.required_eq_zero hc.sound hentering hl hsolvent
  constructor
  · obtain ⟨listing, -, hlisted, -⟩ := borrow_eq_ok hborrow
    obtain ⟨price, hprice, hburden⟩ := exists_price_burdenIn_eq_zero hl hnothing
      (listed?_eq_some.mp hlisted).1 (.inl rfl)
    rw [at?_self, burdenIn_some] at hburden
    exact ⟨price, hprice, by omega⟩
  · intro other listing hget hdebt
    obtain ⟨price, hprice, hburden⟩ := exists_price_burdenIn_eq_zero hl hnothing hget
      (.inr (mem_exposure.mpr (.inr ⟨listing, hget, hdebt⟩)))
    rw [burdenIn] at hburden
    exact ⟨price, hprice, by omega⟩

/-- The underlying of the market of the sample at a price of one half. -/
def halfPrices : Prices :=
  Prices.empty.insert ⟨⟨"jUSD"⟩, ⟨.ofUInt64 500_000_000_000_000_000⟩, .ofSeconds 0, "feed"⟩

/-- A stranger, who has no tokens, borrows a single unit. -/
def sampleTrifle : Dealing := .borrow ⟨"carol"⟩ ⟨"jUSD"⟩ 1 0 halfPrices

theorem sample_unsecured : sample.Unsecured ⟨"carol"⟩ ⟨"jUSD"⟩ := by
  have hnone : (sample.markets.get? ⟨"jUSD"⟩).map
      (fun listing => listing.state.tokenBalance ⟨"carol"⟩) = some 0 := by decide +kernel
  have hmemberships : sample.memberships.of ⟨"carol"⟩ = [] := by decide +kernel
  refine ⟨by decide +kernel, ?_⟩
  rintro other listing (rfl | hmember) hget
  · rw [hget] at hnone
    exact Option.some.inj hnone
  · rw [isMember_iff, hmemberships] at hmember
    cases hmember

theorem sampleTrifle_belowUnit : (sampleTrifle.operation.runOn sample).1 = .ok () ∧
    halfPrices.BelowUnit ⟨"jUSD"⟩ 1 := by
  have hok : (sampleTrifle.operation.runOn sample).1 = .ok () := by decide +kernel
  obtain ⟨events, hborrow⟩ := runOn_silently_eq_ok.mp (runOn_eq_after hok)
  exact ⟨hok, (sample_reachable.unsecured_borrow_belowUnit sample_unsecured hborrow).1⟩

/-- The stranger gets the unit, and then owes it. -/
theorem sampleTrifle_lent : sample.Reachable ∧ sample.Unsecured ⟨"carol"⟩ ⟨"jUSD"⟩ ∧
    (sampleTrifle.operation.runOn sample).1 = .ok () ∧
    ((sample.after (.deal sampleTrifle)).market? ⟨"jUSD"⟩).map (fun m => m.owed ⟨"carol"⟩) =
      some (.ok 1) := by
  refine ⟨sample_reachable, sample_unsecured, ?_, ?_⟩
  all_goals decide +kernel

/-- An unsecured account that has borrowed is still unsecured, and however often
it has borrowed, one unit at most is required of it. -/
theorem Reachable.required_le_one_of_unsecured_borrow (hc : c.Reachable)
    (hunsecured : c.Unsecured account market)
    (hborrow : (borrow account market amount now prices).runOn c = (.ok events, c')) :
    c'.Unsecured account market ∧ c'.required account none prices ≤ 1 := by
  obtain ⟨hafter, change, -, -, hentering, hrealizes, l, hl, hsolvent⟩ :=
    hunsecured.judged_of_borrow hc.sound hborrow
  have hnothing := hunsecured.required_eq_zero hc.sound hentering hl hsolvent
  have hc' := hc.called (.deal (.borrow account market amount now prices))
  have hcalled : c.after (.deal (.borrow account market amount now prices)) = c' :=
    (runOn_silently_snd _ c).trans (congrArg Prod.snd hborrow)
  rw [hcalled] at hc'
  have havailable : c'.available account none prices = 0 := by
    refine hafter.available_eq_zero hc'.sound ?_
    rintro tokens ⟨⟩
  have hjudged := hrealizes.available_le
  exact ⟨hafter, by omega⟩

end Controller

end MoneyMarket
