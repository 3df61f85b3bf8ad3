import Mathlib.Algebra.BigOperators.Ring.Finset
import Mathlib.Algebra.Order.Field.Basic
import Mathlib.Algebra.Order.Field.Rat
import Mathlib.Data.Nat.Cast.Order.Field
import Mathlib.Tactic.FieldSimp
import Mathlib.Tactic.Linarith
import Mathlib.Tactic.Positivity
import Mathlib.Tactic.Ring
import MoneyMarket.Proofs.Market.Debts

/-! # Debts and the total of borrows

The total of borrows is meant to cover the debts of all accounts. Every call
but an accrual keeps it so. An accrual rounds the interest on the total down
and the interest of each account through the index, and so can leave the
total behind the debts, by at most one unit of the first index for each
accrual. Debts are compared here in shares: a share is what a debt of one at
the beginning has grown to, so that accruals leave the shares of all accounts
alone.
-/

namespace MoneyMarket

open Finset Market

variable {m m' : Market} {account : AccountId} {call : Call}

/-- The total of borrows covers the debts of all accounts. -/
def Market.Covered (m : Market) : Prop :=
  ∀ accounts : Finset AccountId, ∑ account ∈ accounts, m.debtOf account ≤ m.totalBorrows.toNat

/-! ## Covered debts -/

/-- A change of one debt, seen by the sum of some debts. -/
theorem Market.sum_debtOf_le (m m' : Market) {borrower : AccountId}
    (hother : ∀ account, borrower ≠ account → m'.debtOf account = m.debtOf account)
    (accounts : Finset AccountId) :
    ∑ account ∈ accounts, m'.debtOf account + m.debtOf borrower ≤
      ∑ account ∈ insert borrower accounts, m.debtOf account + m'.debtOf borrower := by
  have hrest : ∑ account ∈ accounts.erase borrower, m'.debtOf account =
      ∑ account ∈ accounts.erase borrower, m.debtOf account :=
    sum_congr rfl fun account haccount => hother account (ne_of_mem_erase haccount).symm
  have hsum : ∑ account ∈ insert borrower accounts, m.debtOf account =
      m.debtOf borrower + ∑ account ∈ accounts.erase borrower, m.debtOf account := by
    rw [← add_sum_erase _ _ (mem_insert_self borrower accounts), erase_insert_eq_erase]
  -- with the borrower among the accounts the two sums differ in its debt only
  calc ∑ account ∈ accounts, m'.debtOf account + m.debtOf borrower
      ≤ ∑ account ∈ insert borrower accounts, m'.debtOf account + m.debtOf borrower :=
        Nat.add_le_add_right (sum_le_sum_of_subset (subset_insert ..)) _
    _ = m'.debtOf borrower + ∑ account ∈ accounts.erase borrower, m.debtOf account +
          m.debtOf borrower := by
        rw [← add_sum_erase _ _ (mem_insert_self borrower accounts), erase_insert_eq_erase, hrest]
    _ = ∑ account ∈ insert borrower accounts, m.debtOf account + m'.debtOf borrower := by omega

/-- Debts stay covered where one debt changes by no more than the total does. -/
theorem Market.Covered.of_one {borrower : AccountId} (hm : m.Covered)
    (hother : ∀ account, borrower ≠ account → m'.debtOf account = m.debtOf account)
    (hself : m'.debtOf borrower + m.totalBorrows.toNat ≤
      m.debtOf borrower + m'.totalBorrows.toNat) : m'.Covered := by
  intro accounts
  have hsum := m.sum_debtOf_le m' hother accounts
  have hcovered := hm (insert borrower accounts)
  omega

/-- Only an accrual that moves the index can uncover debts. -/
theorem Market.Covered.change (hm : m.Covered) (hchange : Change m call m')
    (hindex : m'.borrowIndex = m.borrowIndex) : m'.Covered := by
  cases hchange.debtChange with
  | untouched _ hborrows hdebts =>
      intro accounts
      simp only [debtOf_congr hindex hdebts, hborrows]
      exact hm accounts
  | @accrued a now ha =>
      intro accounts
      simp only [debtOf_congr hindex rfl]
      exact (hm accounts).trans (by rw [book, ha.borrows]; exact Nat.le_add_right ..)
  | @borrowed p borrower amount now hp =>
      have hself : (m.settleBorrow p).1.debtOf borrower ≤ p.debt.toNat := by
        rw [← hp.borrower_eq]
        exact debtOf_setDebt_self_le ..
      have hdebt := hp.debt
      have hborrows := hp.borrows
      apply hm.of_one
      · intro account hne
        exact m.debtOf_settleBorrow_of_ne p (hp.borrower_eq ▸ hne)
      · change _ ≤ _ + p.totalBorrows.toNat
        omega
  | @repaid p payer borrower amount now hp =>
      have hself : (m.settleRepay p).1.debtOf borrower ≤ p.debt.toNat := by
        rw [← hp.borrower_eq]
        exact debtOf_setDebt_self_le ..
      have hdebt := hp.debt
      have hborrows := hp.borrows
      apply hm.of_one
      · intro account hne
        exact m.debtOf_settleRepay_of_ne p (hp.borrower_eq ▸ hne)
      · change _ ≤ _ + p.totalBorrows.toNat
        omega

/-! ## Shares -/

/-- A debt as a number of shares, in each of which a debt of one at the
beginning has grown. -/
def Debt.shares (d : Debt) : ℚ := d.principal.toNat / d.interestIndex.mantissa.toNat

theorem Debt.shares_nonneg (d : Debt) : 0 ≤ d.shares := by
  unfold shares
  positivity

/-- The shares of all accounts. -/
def Market.shares (m : Market) : ℚ := m.debts.total Debt.shares

theorem Market.figure_shares (m : Market) (account : AccountId) :
    m.debts.figure Debt.shares account = (m.debt account).shares := by
  unfold Registry.figure debt Registry.getD
  cases m.debts.get? account with
  | none => simp [Debt.shares]
  | some d => rfl

/-- Debts are shares at the index, without the fraction. -/
theorem Market.debtOf_le_shares (m : Market) (account : AccountId) :
    (m.debtOf account : ℚ) ≤ (m.debt account).shares * m.borrowIndex.mantissa.toNat := by
  unfold debtOf Debt.shares
  refine (Nat.cast_div_le (α := ℚ)).trans (le_of_eq ?_)
  push_cast
  ring

theorem Market.sum_debtOf_le_shares (m : Market) (accounts : Finset AccountId) :
    ((∑ account ∈ accounts, m.debtOf account : ℕ) : ℚ) ≤
      m.shares * m.borrowIndex.mantissa.toNat := by
  calc ((∑ account ∈ accounts, m.debtOf account : ℕ) : ℚ)
      = ∑ account ∈ accounts, (m.debtOf account : ℚ) := Nat.cast_sum ..
    _ ≤ ∑ account ∈ accounts, (m.debt account).shares * m.borrowIndex.mantissa.toNat :=
        sum_le_sum fun account _ => m.debtOf_le_shares account
    _ = (∑ account ∈ accounts, m.debts.figure Debt.shares account) *
          m.borrowIndex.mantissa.toNat := by
        simp only [sum_mul, figure_shares]
    _ ≤ m.shares * m.borrowIndex.mantissa.toNat := by
        refine mul_le_mul_of_nonneg_right ?_ (Nat.cast_nonneg _)
        exact Registry.sum_figure_le_total Debt.shares Debt.shares_nonneg accounts

/-- Writing a debt down replaces the shares of the account. -/
theorem Market.shares_setDebt (m : Market) (account : AccountId) (principal : Amount) :
    (m.setDebt account principal).shares + (m.debt account).shares =
      m.shares + principal.toNat / m.borrowIndex.mantissa.toNat := by
  have hother : ∀ other, other ≠ account →
      (m.setDebt account principal).debts.get? other = m.debts.get? other := by
    intro other hne
    unfold setDebt
    dsimp only
    split
    · exact Registry.get?_erase_of_ne _ hne.symm
    · exact Registry.get?_insert_of_ne _ _ hne.symm
  have hself : ((m.setDebt account principal).debt account).shares =
      principal.toNat / m.borrowIndex.mantissa.toNat := by
    rw [debt_setDebt, if_pos rfl]
    split
    next hzero => simp [Debt.shares, hzero]
    next => rfl
  have htotal := Registry.total_add_figure Debt.shares hother
  rw [figure_shares, figure_shares, hself] at htotal
  exact htotal

/-! ## Shares along a run -/

/-- Borrows follow the shares of all accounts, up to a number of accruals. -/
structure Market.Follows (m : Market) (accruals : Nat) : Prop where
  index : 10 ^ 18 ≤ m.borrowIndex.mantissa.toNat
  shares : m.shares ≤
    m.totalBorrows.toNat / m.borrowIndex.mantissa.toNat + accruals / (10 : ℚ) ^ 18

theorem Market.IsNew.follows (hm : m.IsNew) : m.Follows 0 := by
  constructor
  · rw [hm.index]
    exact le_rfl
  · rw [shares, hm.debts]
    simp only [Registry.total_empty]
    positivity

variable {accruals : Nat}

theorem Market.Follows.index_pos (hm : m.Follows accruals) :
    (0 : ℚ) < m.borrowIndex.mantissa.toNat := by
  have := hm.index
  exact Nat.cast_pos.mpr (by omega)

theorem Market.Follows.mono {more : Nat} (hm : m.Follows accruals) (hle : accruals ≤ more) :
    m.Follows more := by
  refine ⟨hm.index, hm.shares.trans ?_⟩
  gcongr

/-- The index grows by no more than the factor that borrows grow by, but
borrows lose a fraction. -/
theorem Market.Follows.book {a : Accrual} {now : UInt64} (hm : m.Follows accruals)
    (ha : a.Fits m) : (m.book now a).Follows (accruals + 1) := by
  obtain ⟨factor, hinterest, hindex⟩ := ha.factor
  have hborrows := ha.borrows
  have hpos := hm.index_pos
  have hgrown : m.borrowIndex.mantissa.toNat ≤ a.borrowIndex.mantissa.toNat := by omega
  have hgrown_ge : 10 ^ 18 ≤ a.borrowIndex.mantissa.toNat := hm.index.trans hgrown
  have hgrown_pos : (0 : ℚ) < a.borrowIndex.mantissa.toNat := Nat.cast_pos.mpr (by omega)
  refine ⟨hgrown_ge, ?_⟩
  change m.shares ≤
    a.totalBorrows.toNat / a.borrowIndex.mantissa.toNat + (accruals + 1 : ℕ) / (10 : ℚ) ^ 18
  -- the index is rounded down too, so it does not outgrow the factor
  have hindex_le : (a.borrowIndex.mantissa.toNat : ℚ) ≤
      m.borrowIndex.mantissa.toNat * (1 + factor / 10 ^ 18) := by
    have hfloor := Nat.cast_div_le (α := ℚ) (m := factor * m.borrowIndex.mantissa.toNat)
      (n := 10 ^ 18)
    rw [hindex]
    push_cast at hfloor ⊢
    linarith
  -- rounding takes less than one unit off the interest on the total
  have hborrows_ge : (m.totalBorrows.toNat : ℚ) * (1 + factor / 10 ^ 18) ≤
      a.totalBorrows.toNat + 1 := by
    have hfloor : factor * m.totalBorrows.toNat < 10 ^ 18 * (a.interestAccumulated.toNat + 1) := by
      rw [hinterest]
      exact Nat.lt_mul_div_succ _ (by norm_num)
    have hcast : (factor * m.totalBorrows.toNat : ℚ) <
        10 ^ 18 * (a.interestAccumulated.toNat + 1) :=
      mod_cast hfloor
    rw [hborrows]
    push_cast
    linarith
  have hgrowth : (0 : ℚ) < 1 + factor / 10 ^ 18 := by positivity
  calc m.shares
      ≤ m.totalBorrows.toNat / m.borrowIndex.mantissa.toNat + accruals / 10 ^ 18 := hm.shares
    _ = m.totalBorrows.toNat * (1 + factor / 10 ^ 18) /
          (m.borrowIndex.mantissa.toNat * (1 + factor / 10 ^ 18)) + accruals / 10 ^ 18 := by
        rw [mul_div_mul_right _ _ hgrowth.ne']
    _ ≤ (a.totalBorrows.toNat + 1) / a.borrowIndex.mantissa.toNat + accruals / 10 ^ 18 := by
        gcongr
    _ = a.totalBorrows.toNat / a.borrowIndex.mantissa.toNat +
          1 / a.borrowIndex.mantissa.toNat + accruals / 10 ^ 18 := by
        rw [add_div]
    _ ≤ a.totalBorrows.toNat / a.borrowIndex.mantissa.toNat + 1 / 10 ^ 18 +
          accruals / 10 ^ 18 := by
        gcongr
        exact mod_cast hgrown_ge
    _ = a.totalBorrows.toNat / a.borrowIndex.mantissa.toNat +
          (accruals + 1 : ℕ) / 10 ^ 18 := by
        push_cast
        ring

theorem Market.Follows.settleBorrow {p : BorrowPlan} {borrower : AccountId} {amount : Amount}
    (hm : m.Follows accruals) (hp : p.Fits m borrower amount) :
    (m.settleBorrow p).1.Follows accruals := by
  refine ⟨hm.index, ?_⟩
  have hwritten : (m.settleBorrow p).1.shares + (m.debt p.borrower).shares =
      m.shares + p.debt.toNat / m.borrowIndex.mantissa.toNat := shares_setDebt _ p.borrower p.debt
  change (m.settleBorrow p).1.shares ≤
    p.totalBorrows.toNat / m.borrowIndex.mantissa.toNat + accruals / 10 ^ 18
  have howed : (m.debtOf borrower : ℚ) / m.borrowIndex.mantissa.toNat ≤
      (m.debt borrower).shares := (div_le_iff₀ hm.index_pos).mpr (m.debtOf_le_shares borrower)
  have hshares := hm.shares
  rw [hp.debt, hp.borrower_eq] at hwritten
  rw [hp.borrows]
  push_cast at hwritten ⊢
  rw [add_div] at hwritten ⊢
  linarith

theorem Market.Follows.settleRepay {p : RepayPlan} {borrower : AccountId}
    (hm : m.Follows accruals) (hp : p.Fits m borrower) :
    (m.settleRepay p).1.Follows accruals := by
  refine ⟨hm.index, ?_⟩
  have hwritten : (m.settleRepay p).1.shares + (m.debt p.borrower).shares =
      m.shares + p.debt.toNat / m.borrowIndex.mantissa.toNat := shares_setDebt _ p.borrower p.debt
  change (m.settleRepay p).1.shares ≤
    p.totalBorrows.toNat / m.borrowIndex.mantissa.toNat + accruals / 10 ^ 18
  have howed : (m.debtOf borrower : ℚ) / m.borrowIndex.mantissa.toNat ≤
      (m.debt borrower).shares := (div_le_iff₀ hm.index_pos).mpr (m.debtOf_le_shares borrower)
  have hshares := hm.shares
  rw [hp.borrower_eq] at hwritten
  rw [hp.debt] at howed
  rw [hp.borrows] at hshares
  push_cast at howed hshares
  rw [add_div] at howed hshares
  linarith

/-- Whether a call books interest. -/
def Market.Call.isAccrual : Call → Bool
  | .accrue _ => true
  | _ => false

theorem Market.Follows.change (hm : m.Follows accruals) (hchange : Change m call m') :
    m'.Follows (accruals + if call.isAccrual then 1 else 0) := by
  cases hchange.debtChange with
  | untouched hindex hborrows hdebts =>
      refine Follows.mono ⟨hindex ▸ hm.index, ?_⟩ (Nat.le_add_right ..)
      rw [Market.shares, hindex, hborrows, hdebts]
      exact hm.shares
  | accrued ha => exact hm.book ha
  | borrowed hp => exact hm.settleBorrow hp
  | repaid hp => exact hm.settleRepay hp

theorem Market.Follows.run {calls : List Call} {events : List Event} (hm : m.Follows accruals)
    (hrun : m.run calls = .ok (m', events)) :
    m'.Follows (accruals + calls.countP Call.isAccrual) := by
  induction calls generalizing m accruals events with
  | nil =>
      cases pure_eq_ok.mp hrun
      exact hm
  | cons call rest ih =>
      obtain ⟨m₁, first, later, hperform, hrest, -⟩ := run_cons_eq_ok.mp hrun
      have hfollows := ih (hm.change (change_of_perform hperform)) hrest
      rw [List.countP_cons]
      exact hfollows.mono (by omega)

/-- The debts of all accounts exceed the borrows by at most one unit of the
first index, grown, for each accrual. -/
theorem Market.Follows.sum_debtOf_le (hm : m.Follows accruals) (accounts : Finset AccountId) :
    ∑ account ∈ accounts, m.debtOf account ≤
      m.totalBorrows.toNat + accruals * m.borrowIndex.mantissa.toNat / 10 ^ 18 := by
  have hpos := hm.index_pos
  have hsum : ((∑ account ∈ accounts, m.debtOf account : ℕ) : ℚ) * 10 ^ 18 ≤
      m.totalBorrows.toNat * 10 ^ 18 + accruals * m.borrowIndex.mantissa.toNat := by
    calc ((∑ account ∈ accounts, m.debtOf account : ℕ) : ℚ) * 10 ^ 18
        ≤ m.shares * m.borrowIndex.mantissa.toNat * 10 ^ 18 := by
          gcongr
          exact m.sum_debtOf_le_shares accounts
      _ ≤ (m.totalBorrows.toNat / m.borrowIndex.mantissa.toNat + accruals / (10 : ℚ) ^ 18) *
            m.borrowIndex.mantissa.toNat * 10 ^ 18 := by
          gcongr
          exact hm.shares
      _ = (m.totalBorrows.toNat : ℚ) * 10 ^ 18 + accruals * m.borrowIndex.mantissa.toNat := by
          field_simp
  have hnat : (∑ account ∈ accounts, m.debtOf account) * 10 ^ 18 ≤
      m.totalBorrows.toNat * 10 ^ 18 + accruals * m.borrowIndex.mantissa.toNat := mod_cast hsum
  rw [← Nat.mul_add_div (by norm_num : 10 ^ 18 > 0), Nat.mul_comm (10 ^ 18)]
  exact (Nat.le_div_iff_mul_le (by norm_num)).mpr hnat

end MoneyMarket
