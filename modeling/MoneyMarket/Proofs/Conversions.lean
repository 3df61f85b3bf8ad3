import Mathlib.Algebra.Order.Floor.Semifield
import Mathlib.Data.Rat.Floor
import MoneyMarket.Proofs.Decimals

/-! # Decimals to wads and back

A decimal denotes a rational number. The wad of one that is not negative denotes
this number cut behind the eighteenth place. A wad whose mantissa has at most 96
bits has a decimal that denotes the same number, the one without zeros at the
end; so the way from a wad to its decimal and back leads nowhere else, and the
way from a decimal to its wad and back cuts the places behind the eighteenth.
-/

namespace MoneyMarket

namespace Decimal

variable {d : Decimal}

/-- The number that a decimal denotes. -/
def toRat (d : Decimal) : ℚ := d.coefficient / 10 ^ d.scale

/-- No zero stands at the end behind the point. -/
def IsShort (d : Decimal) : Prop := d.scale ≠ 0 → d.magnitude % 10 ≠ 0

theorem toRat_nonneg_iff : 0 ≤ d.toRat ↔ 0 ≤ d := by
  have hscale : (0 : ℚ) < 10 ^ d.scale := by positivity
  rw [toRat, le_div_iff₀ hscale, zero_mul, Int.cast_nonneg_iff, nonneg_iff]

theorem toRat_neg_iff : d.toRat < 0 ↔ d < 0 := by
  rw [lt_iff_not_ge, toRat_nonneg_iff, not_le]

theorem toRat_of_nonneg (hd : 0 ≤ d) : d.toRat = d.magnitude / 10 ^ d.scale := by
  rw [toRat, coefficient_eq hd, Int.cast_natCast]

/-- The units of a wad in a decimal are counted by cutting. -/
theorem units_eq_floor (hd : 0 ≤ d) : (d.units : Int) = ⌊d.toRat * 10 ^ 18⌋ := by
  have hproduct : d.toRat * 10 ^ 18 = ((d.magnitude * 10 ^ 18 : ℕ) : ℚ) / (10 ^ d.scale : ℕ) := by
    rw [toRat_of_nonneg hd, div_mul_eq_mul_div]
    push_cast
    rfl
  rw [hproduct, Rat.floor_natCast_div_natCast, units]
  push_cast
  rfl

/-! ## No zeros at the end -/

theorem coefficient_normalize (d : Decimal) :
    d.normalize.coefficient * 10 ^ (d.scale - d.normalize.scale) = d.coefficient := by
  have hmagnitude : d.normalize.magnitude * 10 ^ (d.scale - d.normalize.scale) = d.magnitude :=
    Numeral.dropZeros_mul_pow d.scale d.magnitude
  have hnegative : d.normalize.negative = (d.negative && d.magnitude ≠ 0) := rfl
  rw [coefficient, coefficient, hnegative]
  -- only a zero loses its sign
  by_cases hzero : d.magnitude = 0
  · have hzero' : d.normalize.magnitude = 0 := by simpa [hzero] using hmagnitude
    simp [hzero, hzero']
  · cases d.negative
    · simpa [hzero] using mod_cast hmagnitude
    · simpa [hzero] using mod_cast hmagnitude

theorem toRat_normalize (d : Decimal) : d.normalize.toRat = d.toRat := by
  have hscale : d.normalize.scale ≤ d.scale := Numeral.dropZeros_places_le d.scale d.magnitude
  have hplaces : (10 : ℚ) ^ d.scale =
      10 ^ d.normalize.scale * 10 ^ (d.scale - d.normalize.scale) := by
    rw [← pow_add, Nat.add_sub_cancel' hscale]
  rw [toRat, toRat, ← coefficient_normalize d, hplaces]
  push_cast
  rw [mul_div_mul_right _ _ (by positivity)]

theorem isShort_normalize (d : Decimal) : d.normalize.IsShort :=
  Numeral.dropZeros_mod_ten d.scale d.magnitude

end Decimal

namespace Wad

variable {d : Decimal} {w : Wad}

/-- The number that a wad denotes. -/
def toRat (w : Wad) : ℚ := w.mantissa.toNat / 10 ^ 18

theorem toDecimal?_eq_none_iff : w.toDecimal? = none ↔ 2 ^ 96 ≤ w.mantissa.toNat := by
  rw [toDecimal?, Option.map_eq_none_iff, Decimal.ofParts?]
  split
  next h =>
    have hlt : w.mantissa.toNat < 2 ^ 96 := h.1
    simpa using hlt
  next h =>
    have hle : 2 ^ 96 ≤ w.mantissa.toNat := by
      rw [← Nat.not_lt]
      exact fun hlt => h ⟨hlt, by decide⟩
    simpa using hle

/-- The decimal of a wad denotes the same number. -/
theorem toRat_of_toDecimal? (hd : w.toDecimal? = some d) : d.toRat = w.toRat ∧ d.IsShort := by
  rw [toDecimal?, Option.map_eq_some_iff] at hd
  obtain ⟨long, hlong, rfl⟩ := hd
  refine ⟨?_, Decimal.isShort_normalize long⟩
  rw [Decimal.ofParts?] at hlong
  split at hlong
  next h =>
    cases hlong
    rw [Decimal.toRat_normalize]
    simp [Decimal.toRat, Decimal.coefficient, toRat]
  next => cases hlong

theorem ofDecimal_of_toRat_neg (hd : d.toRat < 0) : ofDecimal d = .error .underflow :=
  ofDecimal_of_neg (Decimal.toRat_neg_iff.mp hd)

theorem exists_ofDecimal_floor (hd : 0 ≤ d.toRat) :
    ∃ w, ofDecimal d = .ok w ∧ (w.mantissa.toNat : Int) = ⌊d.toRat * 10 ^ 18⌋ := by
  have hnonneg := Decimal.toRat_nonneg_iff.mp hd
  obtain ⟨w, hw, hunits⟩ := exists_ofDecimal hnonneg
  exact ⟨w, hw, by rw [hunits, Decimal.units_eq_floor hnonneg]⟩

theorem ofDecimal_of_toDecimal? (hd : w.toDecimal? = some d) : ofDecimal d = .ok w := by
  have hvalue := (toRat_of_toDecimal? hd).1
  have hnonneg : 0 ≤ d.toRat := by
    rw [hvalue, toRat]
    positivity
  obtain ⟨v, hv, hfloor⟩ := exists_ofDecimal_floor hnonneg
  rw [hvalue, toRat, div_mul_cancel₀ _ (by positivity), Int.floor_natCast] at hfloor
  have heq : v = w := by
    ext
    exact_mod_cast hfloor
  rw [hv, heq]

theorem exists_toDecimal?_of_ofDecimal (hw : ofDecimal d = .ok w)
    (hfits : w.mantissa.toNat < 2 ^ 96) :
    ∃ short, w.toDecimal? = some short ∧ short.IsShort ∧
      short.toRat = ⌊d.toRat * 10 ^ 18⌋ / 10 ^ 18 := by
  cases hshort : w.toDecimal? with
  | none => exact absurd (toDecimal?_eq_none_iff.mp hshort) (by omega)
  | some short =>
      obtain ⟨hvalue, hzeros⟩ := toRat_of_toDecimal? hshort
      obtain ⟨hd, hunits⟩ := ofDecimal_eq_ok hw
      refine ⟨short, rfl, hzeros, ?_⟩
      rw [hvalue, toRat, hunits, ← Decimal.units_eq_floor hd, Int.cast_natCast]

/-- A decimal below zero underflows. Any other one has a wad, whose mantissa is
the number of whole units of the eighteenth place in it, so nothing else goes
wrong. A wad has no decimal exactly if its mantissa takes more than 96 bits;
otherwise it has one that denotes the same number, has no zeros at the end and
leads back to it. A decimal whose wad has a decimal is cut behind the eighteenth
place by the way there and back. -/
theorem conversions_exact :
    (∀ d : Decimal, d.toRat < 0 → ofDecimal d = .error .underflow) ∧
    (∀ d : Decimal, 0 ≤ d.toRat →
      ∃ w, ofDecimal d = .ok w ∧ (w.mantissa.toNat : Int) = ⌊d.toRat * 10 ^ 18⌋) ∧
    (∀ w : Wad, w.toDecimal? = none ↔ 2 ^ 96 ≤ w.mantissa.toNat) ∧
    (∀ (w : Wad) (d : Decimal), w.toDecimal? = some d →
      d.toRat = w.toRat ∧ d.IsShort ∧ ofDecimal d = .ok w) ∧
    ∀ (d : Decimal) (w : Wad), ofDecimal d = .ok w → w.mantissa.toNat < 2 ^ 96 →
      ∃ short, w.toDecimal? = some short ∧ short.IsShort ∧
        short.toRat = ⌊d.toRat * 10 ^ 18⌋ / 10 ^ 18 := by
  refine ⟨?_, ?_, ?_, ?_, ?_⟩
  · exact fun d => ofDecimal_of_toRat_neg
  · exact fun d => exists_ofDecimal_floor
  · exact fun w => toDecimal?_eq_none_iff
  · intro w d hd
    obtain ⟨hvalue, hzeros⟩ := toRat_of_toDecimal? hd
    exact ⟨hvalue, hzeros, ofDecimal_of_toDecimal? hd⟩
  · exact fun d w => exists_toDecimal?_of_ofDecimal

/-- A number with twenty places. -/
def longDecimal : Decimal := ⟨false, 12345678901234567899, 20, by decide, by decide⟩

theorem longDecimal_conversions :
    ofDecimal ⟨true, 1, 28, by decide, by decide⟩ = .error .underflow ∧
    (∃ w short, ofDecimal longDecimal = .ok w ∧ w.mantissa.toNat = 123456789012345678 ∧
      w.toDecimal? = some short ∧ short.IsShort ∧ short.toRat = 123456789012345678 / 10 ^ 18) ∧
    toDecimal? ⟨⟨900000000000000000, by decide⟩⟩ = some ⟨false, 9, 1, by decide, by decide⟩ ∧
    ofDecimal ⟨false, 9, 1, by decide, by decide⟩ = .ok ⟨⟨900000000000000000, by decide⟩⟩ := by
  obtain ⟨hneg, hnonneg, -, hback, hthere⟩ := conversions_exact
  have hvalue : longDecimal.toRat = 12345678901234567899 / 10 ^ 20 := by
    simp [Decimal.toRat, Decimal.coefficient, longDecimal]
  have hfloor : ⌊longDecimal.toRat * 10 ^ 18⌋ = 123456789012345678 := by
    rw [hvalue]
    norm_num
  have hshort : toDecimal? ⟨⟨900000000000000000, by decide⟩⟩ =
      some ⟨false, 9, 1, by decide, by decide⟩ := by decide
  refine ⟨hneg _ ?_, ?_, hshort, (hback _ _ hshort).2.2⟩
  · norm_num [Decimal.toRat, Decimal.coefficient]
  · obtain ⟨w, hw, hmantissa⟩ := hnonneg longDecimal (by rw [hvalue]; positivity)
    rw [hfloor] at hmantissa
    obtain ⟨short, hshort, hzeros, hcut⟩ := hthere longDecimal w hw (by omega)
    rw [hfloor] at hcut
    exact ⟨w, short, hw, by omega, hshort, hzeros, by rw [hcut, Int.cast_ofNat]⟩

end Wad

end MoneyMarket
