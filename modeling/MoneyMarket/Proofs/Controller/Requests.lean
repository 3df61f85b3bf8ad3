import MoneyMarket.Proofs.Controller.Gates
import MoneyMarket.Proofs.Controller.Settlement
import MoneyMarket.Proofs.Controller.Valuation

/-! # Smaller requests

A gate that allows a request allows every smaller one that is otherwise the
same. Caps, cash and shares of debts are bounds from above. For the liquidity,
the larger and the smaller change go through the same markets side by side:
the collateral is the same, what is required is never more, and no product or
sum overflows for the smaller one that did not for the larger.
-/

namespace MoneyMarket

open Controller

variable {c : Controller} {account : AccountId} {market : MarketId} {prices : Prices}

/-- A change that takes no more out of the same market. -/
structure Hypothetical.Smaller (a' a : Hypothetical) : Prop where
  market : a'.market = a.market
  redeemTokens : a'.redeemTokens ≤ a.redeemTokens
  borrowAmount : a'.borrowAmount ≤ a.borrowAmount
  entering : a'.enteringCollateral = a.enteringCollateral

namespace Controller

/-- No more is required, against the same collateral. -/
structure Sums.Lower (sums sums' : Sums) : Prop where
  collateral : sums'.collateral = sums.collateral
  required : sums'.required ≤ sums.required

/-- What a smaller change comes to is no more, on top of no more. -/
theorem refines_adjust {β : Type} {r : β → β → Prop} {adjusted adjusted' : Option Hypothetical}
    {value : Wad} {figure : Hypothetical → Amount} {sum sum' : Amount}
    {f g : Amount → Except ControllerError β} :
    Option.Rel Hypothetical.Smaller adjusted' adjusted →
    (∀ a' a, Hypothetical.Smaller a' a → figure a' ≤ figure a) → sum' ≤ sum →
    (∀ s s', s' ≤ s → Refines r (f s) (g s')) →
    Refines r
      (match adjusted with
        | some a => liftM (value.mulTruncateAdd (figure a) sum) >>= f
        | none => pure sum >>= f)
      (match adjusted' with
        | some a => liftM (value.mulTruncateAdd (figure a) sum') >>= g
        | none => pure sum' >>= g) := by
  intro hsmaller hfigure hsum hf
  cases hsmaller with
  | none => exact hf sum sum' hsum
  | some ha =>
      exact (Wad.refines_mulTruncateAdd (hfigure _ _ ha) hsum).liftM.bind hf

theorem refines_addMarket {change change' : Option Hypothetical} {sums sums' : Sums}
    (hchange : Option.Rel Hypothetical.Smaller change' change) (hsums : sums.Lower sums') :
    Refines Sums.Lower (c.addMarket account change prices sums market)
      (c.addMarket account change' prices sums' market) := by
  have hadjusted : Option.Rel Hypothetical.Smaller
      (change'.filter fun a => decide (a.market = market))
      (change.filter fun a => decide (a.market = market)) := by
    cases hchange with
    | none => exact .none
    | some ha =>
        rw [Option.filter_some, Option.filter_some, ha.market]
        split
        next => exact .some ha
        next => exact .none
  unfold addMarket
  generalize change.filter (fun a => decide (a.market = market)) = adjusted at hadjusted ⊢
  generalize change'.filter (fun a => decide (a.market = market)) = adjusted' at hadjusted ⊢
  have hentering : adjusted'.bind Hypothetical.enteringCollateral =
      adjusted.bind Hypothetical.enteringCollateral := by
    cases hadjusted with
    | none => rfl
    | some ha => exact ha.entering
  cases c.markets.get? market with
  | none =>
      intro _ hok
      simp only [guard_eq_ok, throw_ne_ok, and_false] at hok
  | some listing =>
      dsimp only
      rw [hentering]
      -- what is read and what is collateral is the same; only what is required differs
      refine refines_bind_of_same fun price => refines_bind_of_same fun position => ?_
      refine (Wad.refines_mulTruncateAdd (Nat.le_refl _) hsums.required).liftM.bind ?_
      intro owed owed' howed
      refine refines_adjust hadjusted (fun _ _ ha => ha.borrowAmount) howed ?_
      intro owed owed' howed
      split
      next => exact refines_pure ⟨hsums.collateral, howed⟩
      next =>
        refine refines_bind_of_same fun underlying => refines_bind_of_same fun value => ?_
        rw [hsums.collateral]
        refine refines_bind_of_same fun collateral => ?_
        refine refines_adjust hadjusted (fun _ _ ha => ha.redeemTokens) howed ?_
        intro required required' hrequired
        exact refines_pure ⟨rfl, hrequired⟩

/-- A smaller change leaves no more lacking, and has a liquidity where the larger
one has. -/
theorem refines_liquidityAfter {change change' : Option Hypothetical}
    (hchange : Option.Rel Hypothetical.Smaller change' change) :
    Refines (fun l l' => l'.shortfall ≤ l.shortfall) (c.liquidityAfter account change prices)
      (c.liquidityAfter account change' prices) := by
  have hexposure : c.exposureAfter account change' = c.exposureAfter account change := by
    cases hchange with
    | none => rfl
    | some ha => rw [exposureAfter, exposureAfter, ha.market]
  unfold liquidityAfter
  rw [hexposure]
  have hsums : ∀ markets : List MarketId, Refines Sums.Lower
      (markets.foldlM (c.addMarket account change prices) ⟨0, 0⟩)
      (markets.foldlM (c.addMarket account change' prices) ⟨0, 0⟩) := by
    intro markets
    refine Refines.foldlM ?_ ⟨rfl, Nat.le_refl _⟩
    intro market _ sums sums' hsums
    exact refines_addMarket hchange hsums
  refine (hsums _).bind ?_
  intro sums sums' hsums
  refine refines_pure ?_
  rw [hsums.collateral, Amount.le_def]
  exact Nat.sub_le_sub_right hsums.required _

/-- What leaves an account solvent, does so with less of it. -/
theorem exists_solvent_of_smaller {change change' : Hypothetical}
    (hsmaller : Hypothetical.Smaller change' change)
    (hsolvent : ∃ l, c.liquidityAfter account (some change) prices = .ok l ∧ l.shortfall = 0) :
    ∃ l, c.liquidityAfter account (some change') prices = .ok l ∧ l.shortfall = 0 := by
  obtain ⟨l, hl, hshortfall⟩ := hsolvent
  obtain ⟨l', hl', hle⟩ := refines_liquidityAfter (.some hsmaller) l hl
  exact ⟨l', hl', Amount.eq_zero_of_le hle hshortfall⟩

/-! ## Gates -/

variable {amount amount' : Amount}

theorem capRejection?_of_le {kind : CapKind} {cap current : Amount} (hle : amount' ≤ amount)
    (hpass : capRejection? kind cap current amount = .ok none) :
    capRejection? kind cap current amount' = .ok none := by
  rw [capRejection?_eq_none] at hpass ⊢
  exact hpass.imp_right (Nat.le_trans (Nat.add_le_add_left hle _))

theorem mintVerdict_of_le (hle : amount' ≤ amount)
    (hallow : c.mintVerdict market amount = .ok .allow) :
    c.mintVerdict market amount' = .ok .allow := by
  obtain ⟨listing, supplied, hlisted, hrunning, hsupplied, hcap⟩ :=
    mintVerdict_eq_allow_iff.mp hallow
  exact mintVerdict_eq_allow_iff.mpr
    ⟨listing, supplied, hlisted, hrunning, hsupplied, capRejection?_of_le hle hcap⟩

theorem redeemVerdict_of_le (hle : amount' ≤ amount)
    (hallow : c.redeemVerdict market account amount prices = .ok .allow) :
    c.redeemVerdict market account amount' prices = .ok .allow := by
  obtain ⟨hlisted, (hmember | hzero) | hsolvent⟩ := redeemVerdict_eq_allow_iff.mp hallow
  · exact redeemVerdict_eq_allow_iff.mpr ⟨hlisted, .inl (.inl hmember)⟩
  · exact redeemVerdict_eq_allow_iff.mpr
      ⟨hlisted, .inl (.inr (Amount.eq_zero_of_le hle hzero))⟩
  · have hsmaller : Hypothetical.Smaller { market, redeemTokens := amount' }
        { market, redeemTokens := amount } := ⟨rfl, hle, Nat.le_refl _, rfl⟩
    exact redeemVerdict_eq_allow_iff.mpr
      ⟨hlisted, .inr (exists_solvent_of_smaller hsmaller hsolvent)⟩

theorem borrowVerdict_of_le {entering : Option Amount} (hle : amount' ≤ amount)
    (hallow : c.borrowVerdict market account amount entering prices = .ok .allow) :
    c.borrowVerdict market account amount' entering prices = .ok .allow := by
  obtain ⟨listing, price, l, hlisted, hrunning, hprice, hcap, hsolvent⟩ :=
    borrowVerdict_eq_allow_iff.mp hallow
  have hsmaller : Hypothetical.Smaller
      { market, borrowAmount := amount', enteringCollateral := entering }
      { market, borrowAmount := amount, enteringCollateral := entering } :=
    ⟨rfl, Nat.le_refl _, hle, rfl⟩
  obtain ⟨l', hsolvent'⟩ := exists_solvent_of_smaller hsmaller ⟨l, hsolvent⟩
  exact borrowVerdict_eq_allow_iff.mpr
    ⟨listing, price, l', hlisted, hrunning, hprice, capRejection?_of_le hle hcap, hsolvent'⟩

theorem transferVerdict_of_le (hle : amount' ≤ amount)
    (hallow : c.transferVerdict market account amount prices = .ok .allow) :
    c.transferVerdict market account amount' prices = .ok .allow := by
  rw [transferVerdict_eq_allow_iff] at hallow ⊢
  exact hallow.imp_right (redeemVerdict_of_le hle)

theorem flashloanVerdict_of_le (hle : amount' ≤ amount)
    (hallow : c.flashloanVerdict market amount = .allow) :
    c.flashloanVerdict market amount' = .allow := by
  obtain ⟨listing, hlisted, hrunning, hcash⟩ := flashloanVerdict_eq_allow_iff.mp hallow
  exact flashloanVerdict_eq_allow_iff.mpr ⟨listing, hlisted, hrunning, Nat.le_trans hle hcash⟩

theorem liquidationVerdict_of_le {marketBorrowed marketCollateral : MarketId}
    (hle : amount' ≤ amount)
    (hallow : c.liquidationVerdict marketBorrowed marketCollateral account amount prices =
      .ok .allow) :
    c.liquidationVerdict marketBorrowed marketCollateral account amount' prices = .ok .allow := by
  obtain ⟨borrowed, l, owed, maxClose, hborrowed, hcollateral, hcredit, hl, hshort, howed,
    hmaxClose, hshare⟩ := liquidationVerdict_eq_allow_iff.mp hallow
  exact liquidationVerdict_eq_allow_iff.mpr ⟨borrowed, l, owed, maxClose, hborrowed, hcollateral,
    hcredit, hl, hshort, howed, hmaxClose, Nat.le_trans hle hshare⟩

/-- What a gate allows, it allows in every smaller amount, with everything else
the same: a smaller request is neither refused nor fails. -/
theorem gates_allow_smaller (c : Controller) (account : AccountId) (market : MarketId)
    (prices : Prices) (hle : amount' ≤ amount) :
    (c.mintVerdict market amount = .ok .allow → c.mintVerdict market amount' = .ok .allow) ∧
    (c.redeemVerdict market account amount prices = .ok .allow →
      c.redeemVerdict market account amount' prices = .ok .allow) ∧
    (∀ entering : Option Amount,
      c.borrowVerdict market account amount entering prices = .ok .allow →
      c.borrowVerdict market account amount' entering prices = .ok .allow) ∧
    (c.transferVerdict market account amount prices = .ok .allow →
      c.transferVerdict market account amount' prices = .ok .allow) ∧
    (c.flashloanVerdict market amount = .allow → c.flashloanVerdict market amount' = .allow) ∧
    ∀ marketCollateral : MarketId,
      c.liquidationVerdict market marketCollateral account amount prices = .ok .allow →
      c.liquidationVerdict market marketCollateral account amount' prices = .ok .allow :=
  ⟨mintVerdict_of_le hle, redeemVerdict_of_le hle, fun _ => borrowVerdict_of_le hle,
    transferVerdict_of_le hle, flashloanVerdict_of_le hle, fun _ => liquidationVerdict_of_le hle⟩

/-- The large supplier asks for half of what it may have, and a liquidator of the
small one for less than the close factor gives. -/
theorem sample_gates_allow_smaller :
    sample.mintVerdict ⟨"jUSD"⟩ (.ofUInt64 200) = .ok .allow ∧
    sample.redeemVerdict ⟨"jUSD"⟩ ⟨"bob"⟩ (.ofUInt64 200) samplePrices = .ok .allow ∧
    sample.borrowVerdict ⟨"jUSD"⟩ ⟨"bob"⟩ (.ofUInt64 200) none samplePrices = .ok .allow ∧
    sample.transferVerdict ⟨"jUSD"⟩ ⟨"bob"⟩ (.ofUInt64 200) samplePrices = .ok .allow ∧
    sample.flashloanVerdict ⟨"jUSD"⟩ (.ofUInt64 200) = .allow ∧
    shortSample.liquidationVerdict ⟨"jUSD"⟩ ⟨"jUSD"⟩ ⟨"alice"⟩ (.ofUInt64 3) samplePrices =
      .ok .allow := by
  have hle : Amount.ofUInt64 200 ≤ .ofUInt64 400 := by decide
  obtain ⟨hmint, hredeem, hborrow, htransfer, hflashloan, -⟩ :=
    gates_allow_smaller sample ⟨"bob"⟩ ⟨"jUSD"⟩ samplePrices hle
  have hshare : Amount.ofUInt64 3 ≤ .ofUInt64 4 := by decide
  obtain ⟨-, -, -, -, -, hliquidation⟩ :=
    gates_allow_smaller shortSample ⟨"alice"⟩ ⟨"jUSD"⟩ samplePrices hshare
  exact ⟨hmint (by decide +kernel), hredeem (by decide +kernel), hborrow none (by decide +kernel),
    htransfer (by decide +kernel), hflashloan (by decide +kernel),
    hliquidation ⟨"jUSD"⟩ (by decide +kernel)⟩

end Controller

end MoneyMarket
