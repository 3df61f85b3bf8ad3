import MoneyMarket.Controller.Gates
import MoneyMarket.Proofs.Success

/-! # What gates allow

A gate allows a request exactly if everything it asks for holds. What it asks
for is here in one place for each gate; that a gate answers at all is part of
it, so every query on the way has to succeed.
-/

namespace MoneyMarket.Controller

variable {c : Controller} {account : AccountId} {market marketBorrowed marketCollateral : MarketId}
  {amount tokens : Amount} {entering : Option Amount} {prices : Prices}

/-! ## Caps and solvency -/

theorem capRejection?_eq_none {kind : CapKind} {cap current delta : Amount} :
    capRejection? kind cap current delta = .ok none ↔
      cap = 0 ∨ current.toNat + delta.toNat ≤ cap.toNat := by
  unfold capRejection?
  split
  next hzero => simp [hzero]
  next hcap =>
    simp only [bind_eq_ok, pure_eq_ok, liftM_controller_eq_ok, Amount.add_eq_ok, ite_eq_right_iff,
      reduceCtorEq, imp_false, Amount.lt_def, Nat.not_lt, hcap, false_or]
    constructor
    · rintro ⟨total, htotal, hle⟩
      exact htotal ▸ hle
    · intro hle
      exact ⟨⟨_, Nat.lt_of_le_of_lt hle cap.toNat_lt⟩, rfl, hle⟩

/-- Where the new total fits, it is compared with the cap, unless there is none. -/
theorem capRejection?_of_fits {kind : CapKind} {cap current delta total : Amount} (hcap : cap ≠ 0)
    (htotal : current.toNat + delta.toNat = total.toNat) :
    capRejection? kind cap current delta =
      .ok (if cap < total then some (.capExceeded kind cap total) else none) := by
  have hadd : current.add delta = .ok total := Amount.add_eq_ok.mpr htotal
  unfold capRejection?
  rw [if_neg hcap, hadd]
  rfl

theorem solvencyVerdict_eq_allow {l : Liquidity} :
    solvencyVerdict l = .allow ↔ l.shortfall = 0 := by
  unfold solvencyVerdict Liquidity.isShort
  by_cases hzero : l.shortfall = 0 <;> simp [hzero]

/-! ## Gates -/

/-- What may refuse a request has to let it pass. -/
theorem refusal_eq_allow {p : Prop} [Decidable p] {r : Rejection}
    {x : Except ControllerError Verdict} :
    (if p then pure (.reject r) else x) = .ok .allow ↔ ¬p ∧ x = .ok .allow := by
  split <;> simp_all

theorem mintVerdict_eq_allow_iff :
    c.mintVerdict market amount = .ok .allow ↔
      ∃ listing supplied, c.listed? market = some listing ∧ listing.policy.mintPaused = false ∧
        listing.state.supplied = .ok supplied ∧
        capRejection? .supply listing.policy.supplyCap supplied amount = .ok none := by
  unfold mintVerdict
  cases c.listed? market with
  | none => simp
  | some listing =>
      simp only [refusal_eq_allow, bind_eq_ok, liftM_controller_eq_ok, Bool.not_eq_true,
        Option.some.injEq, exists_and_left, exists_eq_left']
      refine and_congr_right fun _ => exists_congr fun supplied => and_congr_right fun _ => ?_
      constructor
      · rintro ⟨rejection?, hcap, hallow⟩
        cases rejection? with
        | some rejection => cases hallow
        | none => exact hcap
      · exact fun hcap => ⟨none, hcap, rfl⟩

/-- Collateral may go if there is none, or if it is not needed. -/
theorem redeemVerdict_eq_allow_iff :
    c.redeemVerdict market account tokens prices = .ok .allow ↔
      c.isListed market = true ∧ ((c.isMember account market = false ∨ tokens = 0) ∨
        ∃ l, c.liquidityAfter account (some { market, redeemTokens := tokens }) prices = .ok l ∧
          l.shortfall = 0) := by
  unfold redeemVerdict liquidityIf
  simp only [refusal_eq_allow, Bool.not_eq_true', Bool.not_eq_false]
  refine and_congr_right fun _ => ?_
  split
  next hnothing =>
    have hnothing : c.isMember account market = false ∨ tokens = 0 := by simpa using hnothing
    simp [hnothing]
  next hjudged =>
    have hjudged : ¬(c.isMember account market = false ∨ tokens = 0) := by simpa using hjudged
    simp only [hjudged, false_or, bind_eq_ok, pure_eq_ok, solvencyVerdict_eq_allow]

theorem borrowVerdict_eq_allow_iff :
    c.borrowVerdict market account amount entering prices = .ok .allow ↔
      ∃ listing price l, c.listed? market = some listing ∧ listing.policy.borrowPaused = false ∧
        priceOf prices market = .ok price ∧
        capRejection? .borrow listing.policy.borrowCap listing.state.totalBorrows amount =
          .ok none ∧
        c.liquidityAfter account
          (some { market, borrowAmount := amount, enteringCollateral := entering }) prices =
            .ok l ∧
        l.shortfall = 0 := by
  unfold borrowVerdict
  cases c.listed? market with
  | none => simp
  | some listing =>
      simp only [refusal_eq_allow, bind_eq_ok, Bool.not_eq_true, Option.some.injEq,
        exists_and_left, exists_eq_left']
      refine and_congr_right fun _ => exists_congr fun price => and_congr_right fun _ => ?_
      constructor
      · rintro ⟨rejection?, hcap, hallow⟩
        cases rejection? with
        | some rejection => cases hallow
        | none =>
            simp only [bind_eq_ok, pure_eq_ok, solvencyVerdict_eq_allow] at hallow
            exact ⟨hcap, hallow⟩
      · rintro ⟨hcap, hallow⟩
        refine ⟨none, hcap, ?_⟩
        simp only [bind_eq_ok, pure_eq_ok, solvencyVerdict_eq_allow]
        exact hallow

/-- A transfer asks for what redeeming asks for, and that transfers are not paused. -/
theorem transferVerdict_eq_allow_iff :
    c.transferVerdict market account tokens prices = .ok .allow ↔
      c.transferPaused = false ∧ c.redeemVerdict market account tokens prices = .ok .allow := by
  unfold transferVerdict
  split <;> simp_all

theorem flashloanVerdict_eq_allow_iff :
    c.flashloanVerdict market amount = .allow ↔
      ∃ listing, c.listed? market = some listing ∧ listing.policy.flashloanPaused = false ∧
        amount ≤ listing.state.cash := by
  unfold flashloanVerdict
  cases c.listed? market with
  | none => simp
  | some listing =>
      have hcash : ¬listing.state.cash < amount ↔ amount ≤ listing.state.cash := Nat.not_lt
      simp only [Option.some.injEq, exists_eq_left', ← hcash]
      split <;> simp_all

theorem liquidationVerdict_eq_allow_iff :
    c.liquidationVerdict marketBorrowed marketCollateral account amount prices = .ok .allow ↔
      ∃ borrowed l owed maxClose, c.listed? marketBorrowed = some borrowed ∧
        c.isListed marketCollateral = true ∧ c.isCreditAccount account = false ∧
        c.liquidity account prices = .ok l ∧ l.shortfall ≠ 0 ∧
        borrowed.state.owed account = .ok owed ∧ c.closeFactor.mulTruncate owed = .ok maxClose ∧
        amount ≤ maxClose := by
  unfold liquidationVerdict
  cases c.listed? marketBorrowed with
  | none => simp
  | some borrowed =>
      have hshare : ∀ maxClose : Amount, ¬maxClose < amount ↔ amount ≤ maxClose :=
        fun _ => Nat.not_lt
      simp only [refusal_eq_allow, bind_eq_ok, liftM_controller_eq_ok, pure_eq_ok,
        Option.some.injEq, exists_and_left, exists_eq_left', Bool.not_eq_true, Bool.not_eq_true',
        Bool.not_eq_false, Liquidity.isShort, decide_eq_true_eq, and_true, hshare]

end MoneyMarket.Controller
