import MoneyMarket.Proofs.FixedPoint

/-! # Decimals as wads

A decimal becomes a wad unless it is negative: its places behind the eighteenth
are cut off, and what is left always fits. Cutting keeps the order of decimals.
It makes zeros of those that are positive but smaller than the last place of a
wad.
-/

namespace MoneyMarket

namespace Decimal

variable {d e : Decimal}

/-! ## Signs and order -/

theorem not_lt : ¬d < e ↔ e ≤ d := Int.not_lt

theorem not_le : ¬d ≤ e ↔ e < d := Int.not_le

theorem nonneg_iff : 0 ≤ d ↔ 0 ≤ d.coefficient := by
  change (0 : Int) * Nat.pow 10 d.scale ≤ d.coefficient * Nat.pow 10 0 ↔ _
  rw [Int.zero_mul]
  simp

theorem neg_iff : d < 0 ↔ d.coefficient < 0 := by
  rw [← Int.not_le, ← nonneg_iff, ← not_lt, Classical.not_not]

/-- A negative zero has the coefficient of a zero. -/
theorem coefficient_eq (hd : 0 ≤ d) : d.coefficient = d.magnitude := by
  rw [nonneg_iff] at hd
  unfold coefficient at hd ⊢
  split
  next hnegative =>
    rw [if_pos hnegative] at hd
    omega
  next => rfl

theorem nonneg_of_le (hd : 0 ≤ d) (hle : d ≤ e) : 0 ≤ e := by
  have hscale : (0 : Int) < Nat.pow 10 d.scale := Int.natCast_pos.mpr (Nat.pow_pos (by decide))
  have hproduct : 0 ≤ d.coefficient * Nat.pow 10 e.scale :=
    Int.mul_nonneg (nonneg_iff.mp hd) (Int.natCast_nonneg _)
  exact nonneg_iff.mpr (Int.nonneg_of_mul_nonneg_left (Int.le_trans hproduct hle) hscale)

theorem le_iff_of_nonneg (hd : 0 ≤ d) (he : 0 ≤ e) :
    d ≤ e ↔ d.magnitude * 10 ^ e.scale ≤ e.magnitude * 10 ^ d.scale := by
  change d.coefficient * Nat.pow 10 e.scale ≤ e.coefficient * Nat.pow 10 d.scale ↔ _
  rw [coefficient_eq hd, coefficient_eq he]
  exact_mod_cast Iff.rfl

/-! ## Units of a wad -/

/-- The units of the eighteenth place in the number without its sign. -/
def units (d : Decimal) : Nat := d.magnitude * 10 ^ 18 / 10 ^ d.scale

theorem units_mono (hd : 0 ≤ d) (hle : d ≤ e) : d.units ≤ e.units := by
  rw [le_iff_of_nonneg hd (nonneg_of_le hd hle)] at hle
  unfold units
  rw [Nat.le_div_iff_mul_le (Nat.pow_pos (by decide))]
  -- with the places of the first decimal in front, both sides are whole products
  refine Nat.le_of_mul_le_mul_left ?_ (Nat.pow_pos (by decide) : 0 < 10 ^ d.scale)
  calc 10 ^ d.scale * (d.magnitude * 10 ^ 18 / 10 ^ d.scale * 10 ^ e.scale)
    _ = d.magnitude * 10 ^ 18 / 10 ^ d.scale * 10 ^ d.scale * 10 ^ e.scale := by
        rw [← Nat.mul_assoc, Nat.mul_comm (10 ^ d.scale)]
    _ ≤ d.magnitude * 10 ^ 18 * 10 ^ e.scale :=
        Nat.mul_le_mul_right _ (Nat.div_mul_le_self _ _)
    _ = d.magnitude * 10 ^ e.scale * 10 ^ 18 := Nat.mul_right_comm _ _ _
    _ ≤ e.magnitude * 10 ^ d.scale * 10 ^ 18 := Nat.mul_le_mul_right _ hle
    _ = 10 ^ d.scale * (e.magnitude * 10 ^ 18) := by
        rw [Nat.mul_right_comm, Nat.mul_comm]

/-- The last place of a wad. -/
def lastPlace : Decimal := { (1 : Decimal) with scale := 18, scale_le := by decide }

theorem units_eq_zero_iff (hd : 0 ≤ d) : d.units = 0 ↔ d < lastPlace := by
  have hplaces : 0 < 10 ^ d.scale := Nat.pow_pos (by decide)
  rw [← Classical.not_not (a := d < lastPlace), not_lt,
    le_iff_of_nonneg (d := lastPlace) (by decide) hd, Nat.not_le, units,
    Nat.div_eq_zero_iff_lt hplaces]
  change _ ↔ d.magnitude * 10 ^ 18 < 1 * 10 ^ d.scale
  rw [Nat.one_mul]

end Decimal

namespace Wad

variable {d e : Decimal} {w v : Wad}

theorem ofDecimal_of_neg (hd : d < 0) : ofDecimal d = .error .underflow := by
  unfold ofDecimal
  rw [if_pos (Decimal.neg_iff.mp hd)]
  rfl

/-- No decimal is too large for a wad. -/
theorem exists_ofDecimal (hd : 0 ≤ d) :
    ∃ w, ofDecimal d = .ok w ∧ w.mantissa.toNat = d.units := by
  have hnonneg : ¬d.coefficient < 0 := Int.not_lt.mpr (Decimal.nonneg_iff.mp hd)
  have hlt : d.magnitude < 2 ^ 96 := d.magnitude_lt
  obtain ⟨units, hunits⟩ := Amount.exists_toNat_eq (n := d.magnitude) (by omega)
  have hread : Amount.ofNat d.magnitude = .ok units := Amount.ofNat_eq_ok.mpr hunits.symm
  unfold ofDecimal Decimal.units
  rw [if_neg hnonneg]
  by_cases hscale : d.scale ≤ 18
  · have hplaces : 10 ^ (18 - d.scale) ≤ 10 ^ 18 := Nat.pow_le_pow_right (by decide) (by omega)
    have hscales : 10 ^ 18 = 10 ^ (18 - d.scale) * 10 ^ d.scale := by
      rw [← Nat.pow_add]
      congr 1
      omega
    have hfits : d.magnitude * 10 ^ (18 - d.scale) < 2 ^ 256 := calc
      _ ≤ d.magnitude * 10 ^ 18 := Nat.mul_le_mul_left _ hplaces
      _ < 2 ^ 256 := by omega
    obtain ⟨factor, hfactor⟩ := Amount.exists_toNat_eq (n := 10 ^ (18 - d.scale)) (by omega)
    obtain ⟨mantissa, hmantissa⟩ := Amount.exists_toNat_eq hfits
    have hfactor' : Amount.ofNat (Nat.pow 10 (18 - d.scale)) = .ok factor :=
      Amount.ofNat_eq_ok.mpr hfactor.symm
    have hproduct : units.mul factor = .ok mantissa := by
      rw [Amount.mul_eq_ok, hunits, hfactor, hmantissa]
    refine ⟨⟨mantissa⟩, ?_, ?_⟩
    · simp only [hscale, if_true, bind_eq_ok, pure_eq_ok]
      exact ⟨units, hread, factor, hfactor', mantissa, hproduct, rfl⟩
    · rw [hmantissa, hscales, ← Nat.mul_assoc]
      exact (Nat.mul_div_cancel _ (Nat.pow_pos (by decide))).symm
  · have hscales : 10 ^ d.scale = 10 ^ (d.scale - 18) * 10 ^ 18 := by
      rw [← Nat.pow_add]
      congr 1
      omega
    refine ⟨⟨units.quotient (10 ^ (d.scale - 18))⟩, ?_, ?_⟩
    · simp only [hscale, if_false, bind_eq_ok, pure_eq_ok]
      exact ⟨units, hread, rfl⟩
    · rw [Amount.toNat_quotient, hunits, hscales]
      exact (Nat.mul_div_mul_right _ _ (by decide)).symm

theorem ofDecimal_eq_ok (hw : ofDecimal d = .ok w) : 0 ≤ d ∧ w.mantissa.toNat = d.units := by
  have hd : 0 ≤ d := by
    rw [← Decimal.not_lt]
    intro hneg
    rw [ofDecimal_of_neg hneg] at hw
    cases hw
  obtain ⟨w', hw', hunits⟩ := exists_ofDecimal hd
  cases hw.symm.trans hw'
  exact ⟨hd, hunits⟩

/-- What is smaller than the last place is cut to zero. -/
theorem ofDecimal_eq_zero_iff (hw : ofDecimal d = .ok w) : w = 0 ↔ d < Decimal.lastPlace := by
  obtain ⟨hd, hunits⟩ := ofDecimal_eq_ok hw
  rw [← Decimal.units_eq_zero_iff hd, ← hunits, ← Amount.eq_zero_iff, Wad.ext_iff]
  rfl

/-- Cutting keeps the order. -/
theorem ofDecimal_mono (hle : d ≤ e) (hw : ofDecimal d = .ok w) (hv : ofDecimal e = .ok v) :
    w ≤ v := by
  obtain ⟨hd, hwunits⟩ := ofDecimal_eq_ok hw
  rw [le_def, hwunits, (ofDecimal_eq_ok hv).2]
  exact Decimal.units_mono hd hle

end Wad

end MoneyMarket
