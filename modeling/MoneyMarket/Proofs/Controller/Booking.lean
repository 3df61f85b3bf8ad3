import MoneyMarket.Proofs.Controller.Solvency
import MoneyMarket.Proofs.Market.Booking

/-! # Controllers with their interest booked

Booking the interest of the listed markets leaves policies, memberships and
registrations, so the same markets bear on an account, and its liquidity can be
computed unless something overflows. The collateral of an account is worth no
less then, and more is required of it by what its debts have grown. Of the
collateral that a change takes, the rounding may cost one unit more.
-/

namespace MoneyMarket

open Finset Hypothetical

variable {α β : Type} {c c' c'' : Controller} {account : AccountId} {market : MarketId}
  {prices : Prices} {listing : Listing} {now : UInt64}

/-- A controller as it was, but that interest is booked up to a time in some of
its listed markets. -/
structure Controller.Books (now : UInt64) (c c' : Controller) : Prop where
  rest : c' = { c with markets := c'.markets }
  known : ∀ market listing, c.markets.get? market = some listing →
    ∃ state, c'.markets.get? market = some { listing with state } ∧
      listing.state.Books now state ∧ (listing.policy.isListed = false → state = listing.state)
  unknown : ∀ market, c.markets.get? market = none → c'.markets.get? market = none

namespace Controller.Books

theorem refl (now : UInt64) (c : Controller) : c.Books now c :=
  ⟨rfl, fun _ listing hget => ⟨listing.state, hget, .inl rfl, fun _ => rfl⟩, fun _ => id⟩

theorem performs (hbooks : c.Books now c') (hperforms : c'.Performs market (.accrue now) c'') :
    c.Books now c'' := by
  obtain ⟨found, state, events, hlisted, hperform, rfl⟩ := hperforms
  obtain ⟨hfound, hisListed⟩ := Controller.listed?_eq_some.mp hlisted
  refine ⟨?_, ?_, ?_⟩
  · rw [hbooks.rest]
    rfl
  · intro other listing hget
    obtain ⟨before, hbefore, hbooked, hunlisted⟩ := hbooks.known other listing hget
    rw [Controller.get?_setState]
    split
    next heq =>
      rw [← heq, hfound] at hbefore
      cases hbefore
      obtain ⟨event, haccrue, -⟩ := Market.perform_accrue_eq_ok.mp hperform
      refine ⟨state, rfl, hbooked.accrue haccrue, ?_⟩
      intro hcontra
      cases hisListed.symm.trans hcontra
    next => exact ⟨before, hbefore, hbooked, hunlisted⟩
  · intro other hnone
    rw [Controller.get?_setState]
    split
    next heq =>
      cases hfound.symm.trans (heq ▸ hbooks.unknown other hnone)
    next => exact hbooks.unknown other hnone

/-- Whether or not all markets accrue. -/
theorem after_accrueAll (now : UInt64) (c : Controller) :
    c.Books now (c.after (.accrueAll now)) := by
  have haccrue : ∀ market, (Operation.accrue market now).Keeps (c.Books now) := fun market =>
    (Operation.atomic_tryOnMarket _).keeps fun _ _ _ hbooks hrun =>
      hbooks.performs (Operation.performs_of_accrue hrun)
  have hall : (Operation.accrueAll now).Keeps (c.Books now) :=
    .get_bind fun _ _ => (Operation.Keeps.mapM haccrue _).bind_pure _
  exact hall.silently c (refl now c)

/-! ## What is left -/

theorem creditLimit?_eq (hbooks : c.Books now c') (account : AccountId) :
    c'.creditLimit? account = c.creditLimit? account := by
  rw [hbooks.rest]
  rfl

theorem isCreditAccount_eq (hbooks : c.Books now c') (account : AccountId) :
    c'.isCreditAccount account = c.isCreditAccount account := by
  rw [hbooks.rest]
  rfl

theorem isMember_eq (hbooks : c.Books now c') (account : AccountId) (market : MarketId) :
    c'.isMember account market = c.isMember account market := by
  rw [hbooks.rest]
  rfl

theorem known_eq (hbooks : c.Books now c') : c'.known = c.known := by
  ext k
  rw [mem_known, mem_known]
  constructor
  · rintro ⟨listing, hget⟩
    cases hbefore : c.markets.get? k with
    | none => cases hget.symm.trans (hbooks.unknown k hbefore)
    | some listing => exact ⟨listing, rfl⟩
  · rintro ⟨listing, hget⟩
    obtain ⟨state, hget', -⟩ := hbooks.known k listing hget
    exact ⟨_, hget'⟩

theorem listed? (hbooks : c.Books now c') (hlisted : c.listed? market = some listing) :
    ∃ state, c'.listed? market = some { listing with state } ∧ listing.state.Books now state := by
  obtain ⟨hget, hisListed⟩ := Controller.listed?_eq_some.mp hlisted
  obtain ⟨state, hget', hbooked, -⟩ := hbooks.known market listing hget
  exact ⟨state, Controller.listed?_eq_some.mpr ⟨hget', hisListed⟩, hbooked⟩

/-- A fresh market is listed as it was. -/
theorem listed?_of_fresh (hbooks : c.Books now c') (hlisted : c.listed? market = some listing)
    (hfresh : listing.state.accrualTimestamp = now) : c'.listed? market = some listing := by
  obtain ⟨state, hlisted', hbooked⟩ := hbooks.listed? hlisted
  rw [hlisted', hbooked.eq_of_fresh hfresh]

theorem counts_iff (hbooks : c.Books now c') (state : Market) (entering : Option Amount) :
    c'.Counts account market { listing with state } entering ↔
      c.Counts account market listing entering := by
  unfold Counts
  rw [hbooks.isCreditAccount_eq, hbooks.isMember_eq]

theorem exposureAfter_eq (hbooks : c.Books now c') (account : AccountId)
    (change : Option Hypothetical) :
    c'.exposureAfter account change = c.exposureAfter account change := by
  have hexposure : ∀ k, k ∈ c'.exposure account ↔ k ∈ c.exposure account := by
    intro k
    rw [mem_exposure, mem_exposure, hbooks.isMember_eq]
    refine or_congr_right ?_
    cases hget : c.markets.get? k with
    | none => simp [hbooks.unknown k hget]
    | some listing =>
        obtain ⟨state, hget', hbooked, -⟩ := hbooks.known k listing hget
        simp [hget', hbooked.hasDebt_eq]
  apply exposureAfter_ext
  intro k
  unfold exposureAfter
  cases change with
  | none => exact hexposure k
  | some change => rw [Name.mem_insertDistinct, Name.mem_insertDistinct, hexposure]

end Controller.Books

/-! ## Errors -/

/-- A computation that fails by an overflow only. -/
def OnlyOverflows (x : Except ControllerError α) : Prop :=
  ∀ e, x = .error e → e = .arithmetic .overflow

theorem onlyOverflows_ok (a : α) : OnlyOverflows (.ok a) := nofun

theorem OnlyOverflows.liftM {x : Except ArithmeticError α}
    (hx : ∀ e, e ≠ .overflow → Avoids e x) :
    OnlyOverflows (liftM x : Except ControllerError α) := by
  intro e herror
  obtain ⟨cause, hcause, rfl⟩ := mapError_eq_error.mp herror
  by_contra hne
  exact hx cause (fun hoverflow => hne (congrArg _ hoverflow)) hcause

/-- Steps that are not reached do not matter. -/
theorem OnlyOverflows.bind {x : Except ControllerError α} {f : α → Except ControllerError β}
    (hx : OnlyOverflows x) (hf : ∀ a, x = .ok a → OnlyOverflows (f a)) :
    OnlyOverflows (x >>= f) := by
  intro e herror
  rcases bind_eq_error.mp herror with hfirst | ⟨a, hok, hrest⟩
  · exact hx e hfirst
  · exact hf a hok e hrest

namespace Controller

/-- A hypothetical change is computed. -/
theorem onlyOverflows_adjust {adjusted : Option Hypothetical} {value : Wad}
    {figure : Hypothetical → Amount} {sum : Amount} {f : Amount → Except ControllerError β}
    (hf : ∀ sum, OnlyOverflows (f sum)) :
    OnlyOverflows (match adjusted with
      | some a => liftM (value.mulTruncateAdd (figure a) sum) >>= f
      | none => pure sum >>= f) := by
  cases adjusted with
  | none => exact hf sum
  | some a => exact (OnlyOverflows.liftM fun _ => Wad.avoids_mulTruncateAdd).bind fun _ _ => hf _

/-- A known market that has a price is added to the sums, unless they overflow. -/
theorem onlyOverflows_addMarket {change : Option Hypothetical} {price : Wad} (hc : c.Sound)
    (hget : c.markets.get? market = some listing) (hprice : priceOf prices market = .ok price)
    (sums : Sums) : OnlyOverflows (c.addMarket account change prices sums market) := by
  have hposition : OnlyOverflows
      (liftM (listing.state.position account) : Except ControllerError Position) :=
    .liftM fun _ => (hc market listing hget).avoids_position
  unfold addMarket
  simp only [hget, hprice]
  refine (onlyOverflows_ok price).bind fun _ _ => hposition.bind fun position _ => ?_
  refine (OnlyOverflows.liftM fun _ => Wad.avoids_mulTruncateAdd).bind fun owed _ => ?_
  refine onlyOverflows_adjust fun owed => ?_
  split
  · exact onlyOverflows_ok _
  · refine (OnlyOverflows.liftM fun _ => Wad.avoids_mul).bind fun underlying _ => ?_
    refine (OnlyOverflows.liftM fun _ => Wad.avoids_mul).bind fun value _ => ?_
    refine (OnlyOverflows.liftM fun _ => Wad.avoids_mulTruncateAdd).bind fun collateral _ => ?_
    exact onlyOverflows_adjust fun required => onlyOverflows_ok _

/-- A known market fails for want of a price, or by an overflow. -/
theorem addMarket_eq_error {change : Option Hypothetical} {sums : Sums} {e : ControllerError}
    (hc : c.Sound) (hmarket : market ∈ c.known)
    (herror : c.addMarket account change prices sums market = .error e) :
    e = .arithmetic .overflow ∨ prices.Unpriced market ∧ e = .priceUnavailable market := by
  obtain ⟨listing, hget⟩ := mem_known.mp hmarket
  cases hprice : prices.price? market with
  | some price =>
      have hpriceOf : priceOf prices market = .ok price := by simp [priceOf, hprice]
      exact .inl (onlyOverflows_addMarket hc hget hpriceOf sums e herror)
  | none =>
      have hpriceOf : priceOf prices market = .error (.priceUnavailable market) := by
        simp [priceOf, hprice]
      rw [addMarket] at herror
      simp only [hget, hpriceOf] at herror
      exact .inr ⟨Prices.unpriced_iff.mpr hprice, (Except.error.inj herror).symm⟩

theorem liquidityAfter_eq_error {change : Option Hypothetical} {e : ControllerError} (hc : c.Sound)
    (hknown : ∀ k ∈ c.exposureAfter account change, k ∈ c.known)
    (herror : c.liquidityAfter account change prices = .error e) :
    e = .arithmetic .overflow ∨ ∃ k ∈ c.exposureAfter account change,
      prices.Unpriced k ∧ e = .priceUnavailable k := by
  unfold liquidityAfter at herror
  rcases bind_eq_error.mp herror with hfold | ⟨sums, -, hpure⟩
  · obtain ⟨k, hk, sums, hadd⟩ := foldlM_eq_error hfold
    exact (addMarket_eq_error hc (hknown k hk) hadd).imp_right fun hprice => ⟨k, hk, hprice⟩
  · exact absurd hpure pure_ne_error

namespace Books

/-- Wherever the liquidity could be computed before, it can be after, unless it overflows. -/
theorem onlyOverflows_liquidityAfter {change : Option Hypothetical} {l : Liquidity}
    (hbooks : c.Books now c') (hc' : c'.Sound)
    (hl : c.liquidityAfter account change prices = .ok l) :
    OnlyOverflows (c'.liquidityAfter account change prices) := by
  have hexposure := hbooks.exposureAfter_eq account change
  intro e herror
  have hknown : ∀ k ∈ c'.exposureAfter account change, k ∈ c'.known := by
    rw [hexposure, hbooks.known_eq]
    exact fun k => known_of_liquidityAfter hl
  rcases liquidityAfter_eq_error hc' hknown herror with hoverflow | ⟨k, hk, hunpriced, -⟩
  · exact hoverflow
  · obtain ⟨price, hprice⟩ := exists_price_of_liquidityAfter hl (hexposure ▸ hk)
    simp [priceOf, Prices.unpriced_iff.mp hunpriced] at hprice

end Books

end Controller

/-! ## Figures -/

/-- A change that can be judged before and after the interest of its market is
booked up to a time: the market is fresh then, or the change only takes tokens
that count as collateral. -/
def Hypothetical.Judgeable (change : Hypothetical) (account : AccountId) (now : UInt64)
    (m : Market) : Prop :=
  m.accrualTimestamp = now ∨
    change.enteringCollateral = none ∧ change.redeemTokens ≤ m.collateralTokens account

namespace Controller

/-- The unit that the rounding may cost in a market with interest to book. -/
def staleUnit (c : Controller) (market : MarketId) (now : UInt64) : Nat :=
  if (c.market? market).any fun m => m.isFresh now then 0 else 1

/-- What is required of an account for what its debts have grown by. -/
def debtGrowth (c c' : Controller) (account : AccountId) (prices : Prices) : Nat :=
  c'.required account none prices - c.required account none prices

namespace Books

theorem worth_le (hbooks : c.Books now c') (hc : c.Sound) (market : MarketId) :
    c.worth account none prices market ≤ c'.worth account none prices market := by
  cases hget : c.markets.get? market with
  | none =>
      rw [worth, hget]
      exact Nat.zero_le _
  | some listing =>
      obtain ⟨state, hget', hbooked, -⟩ := hbooks.known market listing hget
      rw [worth_eq hget, worth_eq hget']
      refine worthIn_le (hbooks.counts_iff state none).mpr rfl ?_ ?_
      · exact (congrArg Amount.toNat (hbooked.collateralTokens_eq account)).ge
      · exact hbooked.rate_le (hc market listing hget).consistent

theorem burden_le (hbooks : c.Books now c') (market : MarketId) :
    c.burden account none prices market ≤ c'.burden account none prices market := by
  rw [burden_none, burden_none]
  cases hget : c.markets.get? market with
  | none => exact Nat.zero_le _
  | some listing =>
      obtain ⟨state, hget', hbooked, -⟩ := hbooks.known market listing hget
      rw [hget']
      exact Nat.div_le_div_right (Nat.mul_le_mul_left _ (hbooked.debtOf_le account))

/-- No debts fall by booking interest. -/
theorem required_add_debtGrowth (hbooks : c.Books now c') (account : AccountId)
    (prices : Prices) :
    c.required account none prices + c.debtGrowth c' account prices =
      c'.required account none prices := by
  have hle : c.required account none prices ≤ c'.required account none prices := by
    unfold required
    rw [hbooks.known_eq]
    exact sum_le_sum fun market _ => hbooks.burden_le market
  exact Nat.add_sub_cancel' hle

/-- A change that takes collateral takes more of a higher rate, but it leaves
more too. -/
theorem figuresIn_le {change : Hypothetical} {state : Market} {price : Nat}
    (hbooks : c.Books now c') (hbooked : listing.state.Books now state)
    (hconsistent : listing.state.Consistent)
    (hnone : change.enteringCollateral = none)
    (htakes : change.redeemTokens ≤ listing.state.collateralTokens account) :
    c'.burdenIn account market { listing with state } (some change) price +
        c.worthIn account market listing (some change) price +
        c.burdenIn account market listing none price ≤
      c'.worthIn account market { listing with state } (some change) price +
        c.burdenIn account market listing (some change) price +
        c'.burdenIn account market { listing with state } none price + 1 := by
  rw [burdenIn_some, worthIn_some, burdenIn_none, worthIn_some, burdenIn_some, burdenIn_none,
    hnone, Option.getD_none, Option.getD_none, hbooked.collateralTokens_eq]
  by_cases hcounts : c.Counts account market listing none
  · have hcounts' := (hbooks.counts_iff state none).mpr hcounts
    rw [if_pos hcounts, if_pos hcounts, if_pos hcounts', if_pos hcounts']
    -- the tokens are those that are taken and those that are left
    obtain ⟨left, hleft⟩ := Nat.exists_eq_add_of_le htakes
    have hsplit := mul_add_div_le (listing.tokenValue price) change.redeemTokens.toNat left
    have hsplit' := mul_add_div_le ({ listing with state }.tokenValue price)
      change.redeemTokens.toNat left
    have hrate : left ≠ 0 → listing.state.rate ≤ state.rate := by
      intro hne
      have htokens : (listing.state.collateralTokens account).toNat ≠ 0 := by omega
      exact hbooked.rate_le hconsistent htokens
    have hvalue : listing.tokenValue price * left ≤
        { listing with state }.tokenValue price * left := tokenValue_mul_le price rfl hrate
    have hworth := Nat.div_le_div_right (c := 10 ^ 18) hvalue
    rw [hleft]
    omega
  · have hcounts' := fun h => hcounts ((hbooks.counts_iff state none).mp h)
    rw [if_neg hcounts, if_neg hcounts, if_neg hcounts', if_neg hcounts']
    omega

theorem figures_le {change : Hypothetical} (hbooks : c.Books now c') (prices : Prices)
    (hc : c.Sound) (hget : c.markets.get? change.market = some listing)
    (hjudgeable : change.Judgeable account now listing.state) (market : MarketId) :
    c'.burden account (some change) prices market + c.worth account (some change) prices market +
        c.burden account none prices market ≤
      c'.worth account (some change) prices market + c.burden account (some change) prices market +
        c'.burden account none prices market +
          if market = change.market then c.staleUnit change.market now else 0 := by
  by_cases heq : market = change.market
  · obtain ⟨state, hget', hbooked, -⟩ := hbooks.known _ listing hget
    rw [heq, burden_eq hget', worth_eq hget, burden_eq hget, worth_eq hget', burden_eq hget,
      burden_eq hget', at?_self, at?_none, if_pos rfl]
    by_cases hfresh : listing.state.accrualTimestamp = now
    · -- nothing is booked in this market
      have hsame : { listing with state } = listing := by rw [hbooked.eq_of_fresh hfresh]
      have hcounts : ∀ entering,
          c'.Counts account change.market { listing with state } entering ↔
            c.Counts account change.market listing entering := hbooks.counts_iff state
      rw [hsame] at hcounts ⊢
      unfold burdenIn worthIn
      simp only [hcounts]
      omega
    · obtain hcontra | ⟨hnone, htakes⟩ := hjudgeable
      · exact absurd hcontra hfresh
      · have hunit : c.staleUnit change.market now = 1 := by
          simp [staleUnit, market?, hget, Market.isFresh, hfresh]
        rw [hunit]
        exact hbooks.figuresIn_le hbooked (hc _ listing hget).consistent hnone htakes
  · have hworth : c.worth account none prices market ≤ c'.worth account none prices market :=
      hbooks.worth_le hc market
    rw [burden_some_of_ne heq, worth_some_of_ne heq, worth_some_of_ne heq, burden_some_of_ne heq,
      if_neg heq]
    omega

/-- What a change asks for after interest was booked grows with the debts only. -/
theorem required_le {change : Hypothetical} (hbooks : c.Books now c') (prices : Prices)
    (hc : c.Sound) (hget : c.markets.get? change.market = some listing)
    (hjudgeable : change.Judgeable account now listing.state) :
    c'.required account (some change) prices + c.available account (some change) prices +
        c.required account none prices ≤
      c'.available account (some change) prices + c.required account (some change) prices +
        c'.required account none prices + c.staleUnit change.market now := by
  have hsum := sum_le_sum fun market (_ : market ∈ c.known) =>
    hbooks.figures_le prices hc hget hjudgeable market
  have hunit : (∑ market ∈ c.known,
      if market = change.market then c.staleUnit change.market now else 0) ≤
        c.staleUnit change.market now := by
    rw [sum_ite_eq']
    split
    · exact Nat.le_refl _
    · exact Nat.zero_le _
  simp only [sum_add_distrib] at hsum
  unfold available required
  rw [hbooks.creditLimit?_eq, hbooks.known_eq]
  omega

end Books

/-! ## Judgements -/

/-- A result that is no failure, an overflow, or a refusal for a shortfall within
a limit. -/
inductive RefusedWithin (limit : Nat) : Except ControllerError Unit → Prop
  | passed : RefusedWithin limit (.ok ())
  | overflowed : RefusedWithin limit (.error (.arithmetic .overflow))
  | refused {shortfall : Amount} (hshort : 0 < shortfall) (hlimit : shortfall.toNat ≤ limit) :
      RefusedWithin limit (.error (.rejected (.insufficientLiquidity shortfall)))

theorem RefusedWithin.of_zero {result : Except ControllerError Unit}
    (hresult : RefusedWithin 0 result) :
    result = .ok () ∨ result = .error (.arithmetic .overflow) := by
  cases hresult with
  | passed => exact .inl rfl
  | overflowed => exact .inr rfl
  | refused hshort hlimit => exact absurd hlimit (Nat.not_le.mpr hshort)

/-- What has passed a gate before interest was booked lacks no more after it than
what the debts have grown by. -/
theorem Books.solvency {change : Hypothetical} {l : Liquidity} (hbooks : c.Books now c')
    (hc : c.Sound) (hc' : c'.Sound) (hget : c.markets.get? change.market = some listing)
    (hjudgeable : change.Judgeable account now listing.state)
    (hl : c.liquidityAfter account (some change) prices = .ok l) (hsolvent : l.shortfall = 0) :
    RefusedWithin (c.debtGrowth c' account prices + c.staleUnit change.market now)
      (c'.liquidityAfter account (some change) prices >>= fun l' =>
        (solvencyVerdict l').demand) := by
  cases hl' : c'.liquidityAfter account (some change) prices with
  | error e =>
      cases hbooks.onlyOverflows_liquidityAfter hc' hl e hl'
      exact .overflowed
  | ok l' =>
      change RefusedWithin _ (solvencyVerdict l').demand
      have hrequired := hbooks.required_le prices hc hget hjudgeable
      obtain ⟨-, hshortfall⟩ := liquidityAfter_eq_ok hl
      obtain ⟨-, hshortfall'⟩ := liquidityAfter_eq_ok hl'
      rw [hsolvent, Amount.toNat_zero] at hshortfall
      by_cases hshort : l'.shortfall = 0
      · rw [solvencyVerdict_eq_allow.mpr hshort]
        exact .passed
      · have hverdict : solvencyVerdict l' = .reject (.insufficientLiquidity l'.shortfall) := by
          simp [solvencyVerdict, Liquidity.isShort, hshort]
        rw [hverdict]
        refine .refused (Nat.pos_of_ne_zero fun hzero => hshort (Amount.ext hzero)) ?_
        have hgrowth := hbooks.required_add_debtGrowth account prices
        omega

end Controller

end MoneyMarket
