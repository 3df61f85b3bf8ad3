import Mathlib.Algebra.Group.Int.Defs
import MoneyMarket.Proofs.RateCurve

/-! # What suppliers earn

Suppliers earn the borrow rate on the share that is lent out, less the share
that goes to the reserves. Each of the three factors is cut behind the last
place, and the roof only lowers the share, so over the same time suppliers
never earn more than borrowers pay. Below the roof nothing but what was cut is
missing.
-/

namespace MoneyMarket

/-! ## Three cuts -/

section Cuts

variable {scale lent supplied kept paid share toPool earned : Nat}

/-- Factors that are cut make a product that is not above that of the whole ones. -/
theorem cut_product_le (hscale : 0 < scale) (hshare : share * supplied ≤ lent * scale)
    (htoPool : toPool * scale ≤ paid * kept) (hearned : earned * scale ≤ share * toPool) :
    earned * supplied * scale ≤ paid * lent * kept := by
  refine Nat.le_of_mul_le_mul_right ?_ hscale
  calc earned * supplied * scale * scale
    _ = earned * scale * (supplied * scale) := by ac_rfl
    _ ≤ share * toPool * (supplied * scale) := Nat.mul_le_mul_right _ hearned
    _ = share * supplied * (toPool * scale) := by ac_rfl
    _ ≤ lent * scale * (paid * kept) := Nat.mul_le_mul hshare htoPool
    _ = paid * lent * kept * scale := by ac_rfl

/-- It is below by what the cuts of the factors come to in the product. -/
theorem lt_cut_product (hshare : lent * scale < (share + 1) * supplied)
    (htoPool : paid * kept < (toPool + 1) * scale)
    (hearned : share * toPool < (earned + 1) * scale) :
    paid * lent * kept < supplied * ((earned + 1) * scale + share + toPool) := by
  refine Nat.lt_of_mul_lt_mul_right (a := scale) ?_
  calc paid * lent * kept * scale
    _ = lent * scale * (paid * kept) := by ac_rfl
    _ < (share + 1) * supplied * ((toPool + 1) * scale) := Nat.mul_lt_mul'' hshare htoPool
    _ = supplied * ((share + 1) * (toPool + 1)) * scale := by ac_rfl
    _ ≤ supplied * ((earned + 1) * scale + share + toPool) * scale := by
      refine Nat.mul_le_mul_right _ (Nat.mul_le_mul_left _ ?_)
      rw [Nat.add_mul share, Nat.mul_add share]
      omega

end Cuts

/-! ## Rates -/

/-- Where something is lent out, something is supplied, and the utilization is
their ratio, cut behind the last place. -/
theorem utilizationRate_bounds {cash borrows reserves : Amount} {u : Wad}
    (hu : utilizationRate cash borrows reserves = .ok u) (hborrows : borrows ≠ 0) :
    ∃ supplied, cash.toNat + borrows.toNat = reserves.toNat + supplied ∧ 0 < supplied ∧
      u.mantissa.toNat * supplied ≤ borrows.toNat * 10 ^ 18 ∧
      borrows.toNat * 10 ^ 18 < (u.mantissa.toNat + 1) * supplied := by
  obtain ⟨hvalue, hpositive⟩ := utilizationRate_eq_ok hu
  have hreserves := hpositive.resolve_left fun hnone => hborrows (Amount.eq_zero_iff.mpr hnone)
  obtain ⟨supplied, hsupplied⟩ := Nat.exists_eq_add_of_le (Nat.le_of_lt hreserves)
  have hsome : 0 < supplied := by omega
  rw [hsupplied, Nat.add_sub_cancel_left] at hvalue
  refine ⟨supplied, hsupplied, hsome, ?_, ?_⟩
  · rw [hvalue]
    exact Nat.div_mul_le_self _ _
  · rw [hvalue]
    exact Nat.lt_mul_of_div_lt (Nat.lt_succ_self _) hsome

namespace RateModel

variable {m : RateModel} {cash borrows reserves : Amount} {reserveFactor earned paid : Wad}

/-- What suppliers earn is the borrow rate less the share of the reserves, and of
that the share that is lent out. -/
theorem supplyRate_eq_ok
    (hearned : m.supplyRate cash borrows reserves reserveFactor = .ok earned)
    (hpaid : m.borrowRate cash borrows reserves = .ok paid) :
    ∃ kept toPool share u : Wad,
      10 ^ 18 = reserveFactor.mantissa.toNat + kept.mantissa.toNat ∧
      toPool.mantissa.toNat = paid.mantissa.toNat * kept.mantissa.toNat / 10 ^ 18 ∧
      utilizationRate cash borrows reserves = .ok u ∧
      share.mantissa.toNat = min u.mantissa.toNat m.roof.mantissa.toNat ∧
      earned.mantissa.toNat = share.mantissa.toNat * toPool.mantissa.toNat / 10 ^ 18 := by
  simp only [supplyRate, utilization, bind_eq_ok, pure_eq_ok] at hearned
  obtain ⟨kept, hkept, rate, hrate, toPool, htoPool, share, ⟨u, hu, rfl⟩, hearned⟩ := hearned
  cases hrate.symm.trans hpaid
  exact ⟨kept, toPool, _, u, Wad.sub_eq_ok.mp hkept, Wad.mul_eq_ok htoPool, hu,
    Wad.toNat_min u m.roof, Wad.mul_eq_ok hearned⟩

/-- Over the same time suppliers earn nothing where nothing is lent out, and
elsewhere together no more than borrowers pay, less the share of the reserves.
Where the roof does not cut the utilization, they earn all of it but for the
roundings. -/
theorem supplyRate_covered
    (hearned : m.supplyRate cash borrows reserves reserveFactor = .ok earned)
    (hpaid : m.borrowRate cash borrows reserves = .ok paid) :
    (borrows = 0 → earned = 0) ∧
    (borrows ≠ 0 → reserves.toNat < cash.toNat + borrows.toNat ∧
      (earned.mantissa.toNat : Int) * (cash.toNat + borrows.toNat - reserves.toNat) * 10 ^ 18 ≤
        paid.mantissa.toNat * borrows.toNat * (10 ^ 18 - reserveFactor.mantissa.toNat) ∧
      ∀ u, utilizationRate cash borrows reserves = .ok u → u ≤ m.roof →
        (paid.mantissa.toNat : Int) * borrows.toNat * (10 ^ 18 - reserveFactor.mantissa.toNat) <
          (cash.toNat + borrows.toNat - reserves.toNat) *
            ((earned.mantissa.toNat + 1) * 10 ^ 18 + u.mantissa.toNat +
              paid.mantissa.toNat)) := by
  obtain ⟨kept, toPool, share, u, hkept, htoPool, hu, hshare, hcut⟩ :=
    supplyRate_eq_ok hearned hpaid
  constructor
  · rintro rfl
    have hvalue := (utilizationRate_eq_ok hu).1
    rw [Amount.toNat_zero, Nat.zero_mul, Nat.zero_div] at hvalue
    rw [hshare, hvalue, Nat.zero_min, Nat.zero_mul, Nat.zero_div] at hcut
    exact Wad.ext (Amount.ext hcut)
  · intro hborrows
    obtain ⟨supplied, hsupplied, hsome, hle, hlt⟩ := utilizationRate_bounds hu hborrows
    -- what is supplied, and what is kept, are differences that do not go below zero
    have hcleared : (cash.toNat + borrows.toNat - reserves.toNat : Int) = supplied := by omega
    have hrest : (10 ^ 18 - reserveFactor.mantissa.toNat : Int) = kept.mantissa.toNat := by omega
    rw [hcleared, hrest]
    refine ⟨by omega, ?_, fun u' hu' hroof => ?_⟩
    · have hlent : share.mantissa.toNat * supplied ≤ borrows.toNat * 10 ^ 18 := calc
        _ ≤ u.mantissa.toNat * supplied := Nat.mul_le_mul_right _ (hshare ▸ Nat.min_le_left _ _)
        _ ≤ borrows.toNat * 10 ^ 18 := hle
      exact_mod_cast cut_product_le (by decide) hlent (htoPool ▸ Nat.div_mul_le_self _ _)
        (hcut ▸ Nat.div_mul_le_self _ _)
    · cases hu.symm.trans hu'
      have hwhole : kept ≤ 1 := show kept.mantissa.toNat ≤ 10 ^ 18 by omega
      have hpool : toPool.mantissa.toNat ≤ paid.mantissa.toNat := by
        rw [htoPool, Nat.mul_comm]
        exact Wad.share_le hwhole _
      rw [Nat.min_eq_left (Wad.le_def.mp hroof)] at hshare
      rw [hshare] at hcut
      have hproduct := lt_cut_product hlt
        (htoPool ▸ Nat.lt_mul_of_div_lt (Nat.lt_succ_self _) (by decide))
        (hcut ▸ Nat.lt_mul_of_div_lt (Nat.lt_succ_self _) (by decide))
      exact_mod_cast Nat.lt_of_lt_of_le hproduct
        (Nat.mul_le_mul_left _ (Nat.add_le_add_left hpool _))

/-- With reserves above the cash, what is lent out is twice what is supplied, and
the roof cuts the utilization to one. -/
theorem sampleCurve_supplyRate_covered :
    ∃ earned paid : Wad,
      (tripleSlope sampleCurve).supplyRate (.ofUInt64 20) (.ofUInt64 980) (.ofUInt64 500)
        ⟨⟨100_000_000_000_000_000, by decide⟩⟩ = .ok earned ∧
      (tripleSlope sampleCurve).borrowRate (.ofUInt64 20) (.ofUInt64 980) (.ofUInt64 500) =
        .ok paid ∧
      0 < earned.mantissa.toNat ∧
      (earned.mantissa.toNat : Int) * (20 + 980 - 500) * 10 ^ 18 ≤
        paid.mantissa.toNat * 980 * (10 ^ 18 - 100_000_000_000_000_000) := by
  have hpaid : (tripleSlope sampleCurve).borrowRate (.ofUInt64 20) (.ofUInt64 980)
      (.ofUInt64 500) = .ok ⟨⟨470_000_000_000_000_000, by decide⟩⟩ := rfl
  have hearned : (tripleSlope sampleCurve).supplyRate (.ofUInt64 20) (.ofUInt64 980)
      (.ofUInt64 500) ⟨⟨100_000_000_000_000_000, by decide⟩⟩ =
        .ok ⟨⟨423_000_000_000_000_000, by decide⟩⟩ :=
    bind_eq_ok.mpr ⟨⟨⟨900_000_000_000_000_000, by decide⟩⟩, rfl, bind_eq_ok.mpr ⟨_, hpaid, rfl⟩⟩
  exact ⟨_, _, hearned, hpaid, by decide +kernel,
    ((supplyRate_covered hearned hpaid).2 (by decide)).2.1⟩

end RateModel

end MoneyMarket
