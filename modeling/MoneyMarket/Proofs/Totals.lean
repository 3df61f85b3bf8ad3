import Mathlib.Algebra.BigOperators.Group.Finset.Piecewise
import Mathlib.Algebra.Order.BigOperators.Group.Finset
import MoneyMarket.Balances

/-! # Totals of registries

The total of a registry adds up a figure of each of its values. A name without
a value counts nothing, so the total is the sum over any finite set of names
that has all of the registry's, and a change under one name changes the total
by the figures under this name.
-/

namespace MoneyMarket

open Finset

namespace Registry

variable {ι α M : Type} [Name ι] [DecidableEq ι]

theorem get?_eq_none_of_notMem {r : Registry ι α} {k : ι} (hk : k ∉ r.keys) :
    r.get? k = none := by
  simp only [get?, Option.map_eq_none_iff, List.find?_eq_none, decide_eq_true_eq]
  intro e he heq
  exact hk (heq ▸ List.mem_map_of_mem he)

variable [AddCommMonoid M] (f : α → M)

/-- The figure of the value under a name, none counting nothing. -/
def figure (r : Registry ι α) (k : ι) : M := (r.get? k).elim 0 f

/-- The sum of a figure over all values. -/
def total (r : Registry ι α) : M := ∑ k ∈ r.keys.toFinset, r.figure f k

@[simp]
theorem total_empty : (∅ : Registry ι α).total f = 0 := rfl

/-- Names without a value may be added to the sum. -/
theorem total_eq_sum {r : Registry ι α} {s : Finset ι} (hs : ∀ k ∈ r.keys, k ∈ s) :
    r.total f = ∑ k ∈ s, r.figure f k := by
  apply sum_subset
  · intro k hk
    exact hs k (List.mem_toFinset.mp hk)
  · intro k _ hk
    rw [figure, get?_eq_none_of_notMem (fun hmem => hk (List.mem_toFinset.mpr hmem))]
    rfl

/-- A change under one name. -/
theorem total_add_figure {r r' : Registry ι α} {k : ι}
    (hother : ∀ k', k' ≠ k → r'.get? k' = r.get? k') :
    r'.total f + r.figure f k = r.total f + r'.figure f k := by
  -- both totals are sums over the names of both registries
  let s := {k} ∪ (r.keys.toFinset ∪ r'.keys.toFinset)
  have hk : k ∈ s := by simp [s]
  have hr : ∀ k' ∈ r.keys, k' ∈ s := fun k' hk' => by simp [s, hk']
  have hr' : ∀ k' ∈ r'.keys, k' ∈ s := fun k' hk' => by simp [s, hk']
  have hrest : ∑ k' ∈ s.erase k, r'.figure f k' = ∑ k' ∈ s.erase k, r.figure f k' := by
    apply sum_congr rfl
    intro k' hk'
    rw [figure, figure, hother k' (ne_of_mem_erase hk')]
  rw [total_eq_sum f hr, total_eq_sum f hr', ← add_sum_erase s _ hk, ← add_sum_erase s _ hk, hrest]
  ac_rfl

variable [PartialOrder M] [IsOrderedAddMonoid M]

/-- Where no figure is negative, some names have at most the total. -/
theorem sum_figure_le_total {r : Registry ι α} (hf : ∀ v, 0 ≤ f v) (s : Finset ι) :
    ∑ k ∈ s, r.figure f k ≤ r.total f := by
  have hnonneg : ∀ k, 0 ≤ r.figure f k := by
    intro k
    unfold figure
    cases r.get? k with
    | none => exact le_rfl
    | some v => exact hf v
  rw [total_eq_sum f (s := s ∪ r.keys.toFinset) (fun k hk => by simp [hk])]
  exact sum_le_sum_of_subset_of_nonneg subset_union_left fun k _ _ => hnonneg k

end Registry

namespace Balances

/-- What all accounts hold together. -/
def total (b : Balances) : Nat := Registry.total Amount.toNat b

theorem toNat_of (b : Balances) (account : AccountId) :
    (b.of account).toNat = Registry.figure Amount.toNat b account := by
  unfold of Registry.getD Registry.figure
  cases b.get? account <;> rfl

@[simp]
theorem total_empty : (∅ : Balances).total = 0 := rfl

theorem get?_set_of_ne (b : Balances) {account other : AccountId} (amount : Amount)
    (hne : other ≠ account) : (b.set account amount).get? other = b.get? other := by
  unfold set
  split
  · exact Registry.get?_erase_of_ne b (Ne.symm hne)
  · exact Registry.get?_insert_of_ne b amount (Ne.symm hne)

theorem total_eq_sum_of {b : Balances} {accounts : Finset AccountId}
    (haccounts : ∀ account ∈ b.keys, account ∈ accounts) :
    b.total = ∑ account ∈ accounts, (b.of account).toNat := by
  simp only [toNat_of]
  exact Registry.total_eq_sum _ haccounts

/-- What one account gives and another account gets shows in the total. -/
theorem total_moved {b b' : Balances} (source target : AccountId) {given gotten : Nat}
    (hmoved : ∀ account, (b'.of account).toNat + (if source = account then given else 0) =
      (b.of account).toNat + if target = account then gotten else 0) :
    b'.total + given = b.total + gotten := by
  -- the totals are sums over all accounts that either side knows of
  let s := {source, target} ∪ (b.keys.toFinset ∪ b'.keys.toFinset)
  have hsource : source ∈ s := by simp [s]
  have htarget : target ∈ s := by simp [s]
  have hb : ∀ account ∈ b.keys, account ∈ s := fun account haccount => by simp [s, haccount]
  have hb' : ∀ account ∈ b'.keys, account ∈ s := fun account haccount => by simp [s, haccount]
  have hsum := sum_congr (rfl : s = s) fun account _ => hmoved account
  rw [sum_add_distrib, sum_add_distrib, sum_ite_eq, sum_ite_eq, if_pos hsource, if_pos htarget]
    at hsum
  rw [total_eq_sum_of hb, total_eq_sum_of hb', hsum]

/-- Who holds no more anywhere holds no more altogether. -/
theorem total_le_total {b b' : Balances}
    (hle : ∀ account, (b.of account).toNat ≤ (b'.of account).toNat) : b.total ≤ b'.total := by
  let s := b.keys.toFinset ∪ b'.keys.toFinset
  have hb : ∀ account ∈ b.keys, account ∈ s := fun account haccount => by simp [s, haccount]
  have hb' : ∀ account ∈ b'.keys, account ∈ s := fun account haccount => by simp [s, haccount]
  rw [total_eq_sum_of hb, total_eq_sum_of hb']
  exact sum_le_sum fun account _ => hle account

/-- Another holding of one account changes the total by the difference. -/
theorem total_set (b : Balances) (account : AccountId) (amount : Amount) :
    (b.set account amount).total + (b.of account).toNat = b.total + amount.toNat := by
  have hset : (b.set account amount).total + b.figure Amount.toNat account =
      b.total + (b.set account amount).figure Amount.toNat account :=
    Registry.total_add_figure Amount.toNat fun other hne => get?_set_of_ne b amount hne
  rw [← toNat_of, ← toNat_of, of_set, if_pos rfl] at hset
  exact hset

theorem sum_of_le_total (b : Balances) (accounts : Finset AccountId) :
    ∑ account ∈ accounts, (b.of account).toNat ≤ b.total := by
  simp only [toNat_of]
  exact Registry.sum_figure_le_total Amount.toNat (fun _ => Nat.zero_le _) accounts

theorem of_le_total (b : Balances) (account : AccountId) : (b.of account).toNat ≤ b.total := by
  simpa using b.sum_of_le_total {account}

end Balances

end MoneyMarket
