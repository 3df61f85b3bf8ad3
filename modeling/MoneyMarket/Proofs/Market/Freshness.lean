import MoneyMarket.Proofs.Market.Index

/-! # Fresh and stale markets

A call that has a time needs a market that is fresh at that time, unless it is
an accrual. On a stale market tokens may move and be registered, which leaves
all figures alone. So where the borrow rate is above its ceiling nothing can
lower it: accruals fail, and everything else that could help needs one.
-/

namespace MoneyMarket

open Market

variable {α : Type} {m m' : Market} {account : AccountId} {call : Call} {events : List Event}
  {now : UInt64} {rate max : Wad}

/-! ## Calls of stale markets -/

theorem Market.accrualTimestamp_eq_of_requireFresh {f : Unit → Except MarketError α} {a : α}
    (hok : (m.requireFresh now >>= f) = .ok a) : m.accrualTimestamp = now := by
  simp only [bind_eq_ok, requireFresh_eq_ok] at hok
  obtain ⟨-, hfresh, -⟩ := hok
  exact hfresh

/-- What has a time and is no accrual needs a market that is fresh then. -/
theorem Market.accrualTimestamp_eq_of_perform (hperform : m.perform call = .ok (m', events))
    (htime : call.time? = some now) (hcall : call ≠ .accrue now) : m.accrualTimestamp = now := by
  cases call with
  | accrue =>
      cases htime
      exact absurd rfl hcall
  | mint | redeem | redeemUnderlying | borrow | repay | seize | flashloan =>
      cases htime
      simp only [perform, bind_pure_comp, map_eq_ok] at hperform
      obtain ⟨p, hp, -⟩ := hperform
      exact accrualTimestamp_eq_of_requireFresh hp
  | addReserves | reduceReserves | setReserveFactor | setRateModel =>
      cases htime
      simp only [perform, Market.addReserves, Market.reduceReserves, Market.setReserveFactor,
        Market.setRateModel, bind_assoc] at hperform
      exact accrualTimestamp_eq_of_requireFresh hperform
  | transfer | register | unregister | setCollateralCap => cases htime

/-- Markets that differ in who holds tokens and what is registered only. -/
def Market.SameFigures (m m' : Market) : Prop := ∃ kind balances, m' = { m with kind, balances }

theorem Market.SameFigures.refl (m : Market) : m.SameFigures m := ⟨m.kind, m.balances, rfl⟩

/-- What has no time leaves all figures alone. -/
theorem Market.Change.sameFigures (hchange : Change m call m') (htime : call.time? = none) :
    m.SameFigures m' := by
  cases hchange with
  | nothing => exact .refl m
  | transferred =>
      rw [settleMove_fst]
      exact ⟨_, _, rfl⟩
  | registered | unregistered =>
      rw [settleRegistration, commitCollateral_eq]
      exact ⟨_, _, rfl⟩
  | capped => exact ⟨_, _, rfl⟩
  | accrued | minted | redeemed | underlyingRedeemed | borrowed | repaid | seized | lent
  | reservesAdded | reservesReduced | reserveFactorSet | rateModelSet => cases htime

theorem Market.SameFigures.trans {m'' : Market} (hfirst : m.SameFigures m')
    (hsecond : m'.SameFigures m'') : m.SameFigures m'' := by
  obtain ⟨kind, balances, rfl⟩ := hfirst
  obtain ⟨kind', balances', rfl⟩ := hsecond
  exact ⟨kind', balances', rfl⟩

/-! ## Rates above the ceiling -/

/-- An accrual fails at the ceiling whatever the time that has passed. -/
theorem Market.accrue_eq_excessive :
    m.accrue now = .error (.excessiveInterestRate rate max) ↔
      m.accrualTimestamp < now ∧ m.borrowRate = .ok rate ∧ m.borrowRateMax = max ∧ max < rate := by
  unfold accrue
  by_cases hnow : now = m.accrualTimestamp
  · rw [if_pos hnow]
    constructor
    · exact fun herror => absurd herror pure_ne_error
    · rintro ⟨hlt, -⟩
      exact absurd hlt (hnow ▸ UInt64.lt_irrefl _)
  · rw [if_neg hnow]
    simp only [accrualAt, guard_eq_error, bind_eq_error, liftM_market_eq_error,
      liftM_market_eq_ok, reduceCtorEq, and_false, exists_false, or_false, false_or,
      pure_ne_error, MarketError.excessiveInterestRate.injEq]
    constructor
    · rintro ⟨hle, r, hrate, habove, rfl, rfl⟩
      exact ⟨UInt64.lt_of_le_of_ne (UInt64.not_lt.mp hle) (Ne.symm hnow), hrate, rfl, habove⟩
    · rintro ⟨hlt, hrate, rfl, habove⟩
      exact ⟨UInt64.lt_asymm hlt, rate, hrate, habove, rfl, rfl⟩

/-- Where borrowing costs nothing an accrual succeeds. -/
theorem Market.exists_accrue_of_free (hrate : m.borrowRate = .ok 0)
    (hle : m.accrualTimestamp ≤ now) : ∃ m' event, m.accrue now = .ok (m', event) := by
  unfold accrue
  split
  · exact ⟨_, _, rfl⟩
  · have hborrows : m.totalBorrows.add 0 = .ok m.totalBorrows :=
      Amount.add_eq_ok.mpr (Nat.add_zero _)
    have haccrual : m.accrualAt now =
        .ok ⟨0, m.borrowIndex, m.totalBorrows, m.totalReserves⟩ := by
      simp only [accrualAt, guard_eq_ok, bind_eq_ok, liftM_market_eq_ok, pure_eq_ok]
      exact ⟨UInt64.not_lt.mpr hle, 0, hrate, Nat.not_lt_zero _, 0, Wad.zero_mulAmount _, 0,
        Wad.zero_mulTruncate _, _, hborrows, _, Wad.mulTruncateAdd_zero _ _, 0, Wad.zero_mul _, _,
        Wad.add_zero _, rfl⟩
    rw [haccrual]
    exact ⟨_, _, rfl⟩

/-- The figures that an accrual looks at are all figures. -/
theorem Market.SameFigures.accrue_eq_excessive (hsame : m.SameFigures m') {later : UInt64}
    (herror : m.accrue now = .error (.excessiveInterestRate rate max)) (hlater : now ≤ later) :
    m'.accrue later = .error (.excessiveInterestRate rate max) := by
  obtain ⟨kind, balances, rfl⟩ := hsame
  obtain ⟨hlt, hfigures⟩ := Market.accrue_eq_excessive.mp herror
  exact Market.accrue_eq_excessive.mpr ⟨UInt64.lt_of_lt_of_le hlt hlater, hfigures⟩

/-- Where an accrual fails at the ceiling, calls from that time on leave all
figures alone. -/
theorem Market.sameFigures_of_perform (hperform : m.perform call = .ok (m', events))
    (herror : m.accrue now = .error (.excessiveInterestRate rate max))
    (htime : ∀ later, call.time? = some later → now ≤ later) : m.SameFigures m' := by
  cases hcall : call.time? with
  | none => exact (change_of_perform hperform).sameFigures hcall
  | some later =>
      have hstale := (Market.accrue_eq_excessive.mp herror).1
      have hfails := (SameFigures.refl m).accrue_eq_excessive herror (htime later hcall)
      have haccrue : call ≠ .accrue later := by
        rintro rfl
        obtain ⟨_, haccrue, -⟩ := perform_accrue_eq_ok.mp hperform
        cases hfails.symm.trans haccrue
      have hfresh := accrualTimestamp_eq_of_perform hperform hcall haccrue
      exact absurd (UInt64.lt_of_lt_of_le hstale (htime later hcall)) (hfresh ▸ UInt64.lt_irrefl _)

end MoneyMarket
