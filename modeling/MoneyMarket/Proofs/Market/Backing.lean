import Mathlib.Algebra.BigOperators.Ring.Finset
import MoneyMarket.Controller.Gates
import MoneyMarket.Proofs.Market.Consistency

/-! # Backing of the suppliers' claims

What the suppliers could claim is there: the tokens of all accounts, each
holding valued at the exchange rate, are worth no more than the cash and the
borrows less the reserves. So neither the exchange rate nor the supply cap
meets reserves that are larger than what backs them.
-/

namespace MoneyMarket

open Finset Market

/-- What the tokens of some accounts are worth at a rate, each holding without
the fraction. -/
def Market.claims (m : Market) (rate : Wad) (accounts : Finset AccountId) : Nat :=
  ∑ account ∈ accounts, rate.mantissa.toNat * (m.tokenBalance account).toNat / 10 ^ 18

/-- Rounding each claim down leaves them within the value of the supply. -/
theorem Market.claims_mul_le {m : Market} (hsupply : m.totalSupply.toNat = m.balances.total)
    (rate : Wad) (accounts : Finset AccountId) :
    m.claims rate accounts * 10 ^ 18 ≤ rate.mantissa.toNat * m.totalSupply.toNat := by
  calc m.claims rate accounts * 10 ^ 18
      = ∑ account ∈ accounts,
          rate.mantissa.toNat * (m.tokenBalance account).toNat / 10 ^ 18 * 10 ^ 18 :=
        sum_mul ..
    _ ≤ ∑ account ∈ accounts, rate.mantissa.toNat * (m.tokenBalance account).toNat :=
        sum_le_sum fun _ _ => Nat.div_mul_le_self _ _
    _ = rate.mantissa.toNat * ∑ account ∈ accounts, (m.tokenBalance account).toNat :=
        (mul_sum ..).symm
    _ ≤ rate.mantissa.toNat * m.totalSupply.toNat :=
        Nat.mul_le_mul_left _ (hsupply ▸ m.balances.sum_of_le_total accounts)

theorem Market.Consistent.claims_le_netAssets {m : Market} (hm : m.Consistent) {rate : Wad}
    (hrate : m.exchangeRate = .ok rate) (accounts : Finset AccountId) :
    m.claims rate accounts ≤ m.netAssets := by
  refine Nat.le_of_mul_le_mul_right ?_ (by decide : 0 < 10 ^ 18)
  calc m.claims rate accounts * 10 ^ 18
      ≤ rate.mantissa.toNat * m.totalSupply.toNat := claims_mul_le hm.supply rate accounts
    _ = m.rate * m.totalSupply.toNat := by rw [exchangeRate_eq_ok hrate]
    _ ≤ m.netAssets * 10 ^ 18 := m.rate_mul_supply_le

/-- The supply cap underflows only where reserves are not backed. -/
theorem Controller.mintVerdict_eq_underflow {c : Controller} {market : MarketId}
    {listing : Listing} {amount : Amount} (hlisted : c.listed? market = some listing)
    (hunderflow : c.mintVerdict market amount = .error (.arithmetic .underflow)) :
    listing.state.cash.toNat + listing.state.totalBorrows.toNat <
      listing.state.totalReserves.toNat := by
  unfold mintVerdict at hunderflow
  simp only [hlisted] at hunderflow
  split at hunderflow
  next => cases hunderflow
  next =>
    simp only [bind_eq_error, liftM_controller_eq_arithmetic] at hunderflow
    rcases hunderflow with hsupplied | ⟨supplied, -, hcap | ⟨rejection, -, hverdict⟩⟩
    · exact supplied_eq_underflow hsupplied
    · unfold capRejection? at hcap
      split at hcap
      · cases hcap
      · simp only [bind_eq_error, liftM_controller_eq_arithmetic, Amount.add_ne_underflow,
          pure_ne_error, and_false, exists_const, or_self] at hcap
    · cases rejection <;> cases hverdict

/-- In a reachable market reserves are backed, the suppliers' claims at the
exchange rate are backed by the rest, and neither the exchange rate nor the
gate of a supply fails for want of backing. -/
theorem Market.Reachable.claims_backed {m : Market} (hm : m.Reachable) :
    m.totalReserves.toNat ≤ m.cash.toNat + m.totalBorrows.toNat ∧
    (∀ rate, m.exchangeRate = .ok rate → ∀ accounts : Finset AccountId,
      m.claims rate accounts + m.totalReserves.toNat ≤ m.cash.toNat + m.totalBorrows.toNat) ∧
    m.exchangeRate ≠ .error .underflow ∧
    ∀ (c : Controller) (market : MarketId) (policy : MarketPolicy) (amount : Amount),
      c.listed? market = some ⟨m, policy⟩ →
        c.mintVerdict market amount ≠ .error (.arithmetic .underflow) := by
  have hconsistent := hm.consistent
  have hbacked := hconsistent.backed
  refine ⟨hbacked, ?_, ?_, ?_⟩
  · intro rate hrate accounts
    have hclaims := hconsistent.claims_le_netAssets hrate accounts
    unfold netAssets at hclaims
    omega
  · intro hunderflow
    exact absurd (exchangeRate_eq_underflow hunderflow) (Nat.not_lt.mpr hbacked)
  · intro c market policy amount hlisted hunderflow
    exact absurd (Controller.mintVerdict_eq_underflow hlisted hunderflow) (Nat.not_lt.mpr hbacked)

/-- The claim of the sample's supplier, which the rate values above what was
supplied. -/
theorem Market.sample_claims_backed :
    sample.Reachable ∧ sample.exchangeRate = .ok ⟨⟨1_000_360_000_000_000_000, by decide⟩⟩ ∧
      sample.claims ⟨⟨1_000_360_000_000_000_000, by decide⟩⟩ {⟨"alice"⟩} = 1_000_360_000 ∧
      1_000_360_000 + sample.totalReserves.toNat ≤
        sample.cash.toNat + sample.totalBorrows.toNat := by
  have hrate : sample.exchangeRate = .ok ⟨⟨1_000_360_000_000_000_000, by decide⟩⟩ := by rfl
  have hclaims :
      sample.claims ⟨⟨1_000_360_000_000_000_000, by decide⟩⟩ {⟨"alice"⟩} = 1_000_360_000 := by
    rw [claims, sum_singleton]
    rfl
  have hbacked := sample_reachable.claims_backed.2.1 _ hrate {⟨"alice"⟩}
  rw [hclaims] at hbacked
  exact ⟨sample_reachable, hrate, hclaims, hbacked⟩

end MoneyMarket
