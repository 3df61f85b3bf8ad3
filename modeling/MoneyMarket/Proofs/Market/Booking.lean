import MoneyMarket.Proofs.Market.Index
import MoneyMarket.Proofs.Market.Sparing

/-! # Markets with their interest booked

Booking interest changes the figures that grow with the time and no others. So
whatever is planned for tokens and registrations is planned alike before and
after, no debt falls, and collateral is worth no less. The figures of an account
can be computed in any reachable market, unless they overflow.
-/

namespace MoneyMarket

open Market

variable {m m' m'' : Market} {now : UInt64} {account : AccountId} {event : Option Event}

/-- A market as it was, or with its interest booked up to a time. -/
def Market.Books (now : UInt64) (m m' : Market) : Prop :=
  m' = m ∨ ∃ event, m.accrue now = .ok (m', event)

namespace Market.Books

/-- Interest is booked only once at a time. -/
theorem accrue (hbooks : m.Books now m') (haccrue : m'.accrue now = .ok (m'', event)) :
    m.Books now m'' := by
  rcases hbooks with rfl | ⟨first, hfirst⟩
  · exact .inr ⟨event, haccrue⟩
  · rw [Market.accrue, if_pos (accrue_accrualTimestamp hfirst).2.symm] at haccrue
    cases haccrue
    exact .inr ⟨first, hfirst⟩

/-- A fresh market has no interest to book. -/
theorem eq_of_fresh (hbooks : m.Books now m') (hfresh : m.accrualTimestamp = now) : m' = m := by
  rcases hbooks with rfl | ⟨event, haccrue⟩
  · rfl
  · rw [Market.accrue, if_pos hfresh.symm] at haccrue
    cases haccrue
    rfl

theorem change (hbooks : m.Books now m') : Change m (.accrue now) m' := by
  rcases hbooks with rfl | ⟨event, haccrue⟩
  · exact .nothing _
  · rcases accrue_eq_ok haccrue with rfl | ⟨a, ha, rfl⟩
    · exact .nothing _
    · exact .accrued ha

/-- These are the figures that grow with the time. -/
theorem eq_grown (hbooks : m.Books now m') :
    m' = { m with
      accrualTimestamp := m'.accrualTimestamp
      borrowIndex := m'.borrowIndex
      totalBorrows := m'.totalBorrows
      totalReserves := m'.totalReserves } := by
  rcases hbooks with rfl | ⟨event, haccrue⟩
  · rfl
  · rcases accrue_eq_ok haccrue with rfl | ⟨a, -, rfl⟩ <;> rfl

theorem collateralTokens_eq (hbooks : m.Books now m') (account : AccountId) :
    m'.collateralTokens account = m.collateralTokens account := by
  rw [hbooks.eq_grown]
  rfl

theorem hasDebt_eq (hbooks : m.Books now m') (account : AccountId) :
    m'.hasDebt account = m.hasDebt account := by
  rw [hbooks.eq_grown]
  rfl

theorem planTransfer_eq (hbooks : m.Books now m') (source target : AccountId) (tokens : Amount)
    (isMember : Bool) :
    m'.planTransfer source target tokens isMember =
      m.planTransfer source target tokens isMember := by
  rw [hbooks.eq_grown]
  rfl

theorem planUnregister_eq (hbooks : m.Books now m') (account : AccountId) :
    m'.planUnregister account = m.planUnregister account := by
  rw [hbooks.eq_grown]
  rfl

theorem debtOf_le (hbooks : m.Books now m') (account : AccountId) :
    m.debtOf account ≤ m'.debtOf account := by
  have hindex : m.borrowIndex.mantissa.toNat ≤ m'.borrowIndex.mantissa.toNat :=
    hbooks.change.debtChange.borrowIndex_le
  have hdebt : m'.debt account = m.debt account := by
    rw [hbooks.eq_grown]
    rfl
  unfold debtOf
  rw [hdebt]
  exact Nat.div_le_div_right (Nat.mul_le_mul_left _ hindex)

/-- Without a debt there is nothing that grows. -/
theorem debtOf_eq (hbooks : m.Books now m') (hdebt : m.hasDebt account = false) :
    m'.debtOf account = m.debtOf account := by
  rw [debtOf_eq_zero hdebt, debtOf_eq_zero ((hbooks.hasDebt_eq account).trans hdebt)]

theorem rate_le (hbooks : m.Books now m') (hm : m.Consistent)
    (hcollateral : (m.collateralTokens account).toNat ≠ 0) : m.rate ≤ m'.rate := by
  have hafter : (m'.collateralTokens account).toNat ≠ 0 := by
    rwa [hbooks.collateralTokens_eq]
  exact hbooks.change.rate_le_of_collateral hm hafter

end Market.Books

/-- The exchange rate and the debts of a reachable market fail by an overflow only. -/
theorem Market.Reachable.avoids_position {e : ArithmeticError} (hm : m.Reachable)
    (he : e ≠ .overflow) : Avoids e (m.position account) := by
  have hrate : Avoids e m.exchangeRate := by
    by_cases hunderflow : e = .underflow
    · subst hunderflow
      intro herror
      exact absurd (exchangeRate_eq_underflow herror) (Nat.not_lt.mpr hm.consistent.backed)
    · exact avoids_exchangeRate he hunderflow
  exact (hm.indexed.avoids_owed he).bind fun _ _ => hrate.bind fun _ _ => avoids_pure _ _

end MoneyMarket
