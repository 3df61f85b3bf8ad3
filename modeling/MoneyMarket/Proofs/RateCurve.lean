import MoneyMarket.Proofs.FixedPoint
import MoneyMarket.RateModel

/-! # Rate curves

A curve with one kink is a curve with two whose flat stretch is empty, so both
kinds of model have one height: the base, the slope up to the first kink, and
the jump slope behind the second. Only the products can overflow on the way, and
they grow with the utilization. A curve that has a rate somewhere therefore has
one at every lower utilization, and the two are no further apart than the
steeper slope and one rounding allow, whatever kinks lie between them.
Utilization falls with the cash. It rises with the debt as long as the reserves
are in cash, and the borrow rate follows it.
-/

namespace MoneyMarket

/-- A model as it can be set up. -/
inductive RateModel.Made : RateModel → Prop where
  | jumpRate {slopes : Slopes} {kink roof : Wad} {m : JumpRate}
      (hmake : JumpRate.make slopes kink roof = .ok m) : Made (.jumpRate m)
  | tripleSlope {slopes : Slopes} {kink1 kink2 roof : Wad} {m : TripleSlope}
      (hmake : TripleSlope.make slopes kink1 kink2 roof = .ok m) : Made (.tripleSlope m)

/-! ## The height of a curve -/

namespace Slopes

/-- The units of the steeper of the two slopes. -/
def steepest (s : Slopes) : Nat :=
  max s.multiplier.mantissa.toNat s.jumpMultiplier.mantissa.toNat

theorem rising_eq_ok {s : Slopes} {utilization rate : Wad} :
    s.rising utilization = .ok rate ↔
      utilization.mantissa.toNat * s.multiplier.mantissa.toNat < 2 ^ 256 ∧
        utilization.mantissa.toNat * s.multiplier.mantissa.toNat / 10 ^ 18 +
          s.base.mantissa.toNat = rate.mantissa.toNat :=
  Wad.mul_add_eq_ok

theorem jumping_eq_ok {s : Slopes} {kink atKink utilization rate : Wad} (hle : kink ≤ utilization) :
    s.jumping kink atKink utilization = .ok rate ↔
      (utilization.mantissa.toNat - kink.mantissa.toNat) * s.jumpMultiplier.mantissa.toNat <
          2 ^ 256 ∧
        (utilization.mantissa.toNat - kink.mantissa.toNat) * s.jumpMultiplier.mantissa.toNat /
          10 ^ 18 + atKink.mantissa.toNat = rate.mantissa.toNat := by
  have hexcess : ∀ excess : Wad, utilization.sub kink = .ok excess ↔
      utilization.mantissa.toNat - kink.mantissa.toNat = excess.mantissa.toNat := by
    intro excess
    rw [Wad.sub_eq_ok]
    rw [Wad.le_def] at hle
    omega
  unfold jumping
  simp only [bind_eq_ok, hexcess]
  constructor
  · rintro ⟨excess, hexcess, hrate⟩
    rw [hexcess]
    exact Wad.mul_add_eq_ok.mp (bind_eq_ok.mpr hrate)
  · intro hrate
    obtain ⟨excess, hexcess⟩ := Wad.exists_toNat_eq
      (Nat.lt_of_le_of_lt (Nat.sub_le _ kink.mantissa.toNat) utilization.mantissa.toNat_lt)
    rw [← hexcess] at hrate
    exact ⟨excess, hexcess.symm, bind_eq_ok.mp (Wad.mul_add_eq_ok.mpr hrate)⟩

end Slopes

namespace TripleSlope

variable {m : TripleSlope} {utilization rate : Wad}

/-- The products behind the rate at so many units of utilization fit. -/
def Fits (m : TripleSlope) (u : Nat) : Prop :=
  min u m.kink1.mantissa.toNat * m.slopes.multiplier.mantissa.toNat < 2 ^ 256 ∧
    (u - m.kink2.mantissa.toNat) * m.slopes.jumpMultiplier.mantissa.toNat < 2 ^ 256

/-- The units of the rate at so many units of utilization. -/
def height (m : TripleSlope) (u : Nat) : Nat :=
  (u - m.kink2.mantissa.toNat) * m.slopes.jumpMultiplier.mantissa.toNat / 10 ^ 18 +
    (min u m.kink1.mantissa.toNat * m.slopes.multiplier.mantissa.toNat / 10 ^ 18 +
      m.slopes.base.mantissa.toNat)

/-- The rate is the height of the curve, wherever the products fit. -/
theorem rateAt_eq_ok (hkinks : m.kink1 ≤ m.kink2) :
    m.rateAt utilization = .ok rate ↔
      m.Fits utilization.mantissa.toNat ∧
        m.height utilization.mantissa.toNat = rate.mantissa.toNat := by
  rw [Wad.le_def] at hkinks
  unfold rateAt Fits height
  split
  next hrising =>
    rw [Wad.le_def] at hrising
    rw [Slopes.rising_eq_ok, Nat.min_eq_left hrising,
      Nat.sub_eq_zero_of_le (Nat.le_trans hrising hkinks)]
    simp
  next hrising =>
    rw [Wad.le_def, Nat.not_le] at hrising
    rw [Nat.min_eq_right (Nat.le_of_lt hrising)]
    split
    next hflat =>
      rw [Slopes.rising_eq_ok, Nat.sub_eq_zero_of_le (Wad.le_def.mp hflat)]
      simp
    next hflat =>
      -- the last stretch starts at the rate of the first kink, which has to exist
      have hjumping : m.kink2 ≤ utilization := Nat.le_of_not_le hflat
      simp only [bind_eq_ok, Slopes.rising_eq_ok, Slopes.jumping_eq_ok hjumping]
      constructor
      · rintro ⟨atKink, ⟨hrise, hkink⟩, hjump, hsum⟩
        exact ⟨⟨hrise, hjump⟩, hkink ▸ hsum⟩
      · rintro ⟨⟨hrise, hjump⟩, hsum⟩
        obtain ⟨atKink, hkink⟩ := Wad.exists_toNat_eq
          (Nat.lt_of_le_of_lt (Nat.le_add_left _ _) (hsum ▸ rate.mantissa.toNat_lt))
        exact ⟨atKink, ⟨hrise, hkink.symm⟩, hjump, hkink ▸ hsum⟩

variable {x y : Nat}

theorem Fits.mono (hle : x ≤ y) (hfits : m.Fits y) : m.Fits x :=
  ⟨Nat.lt_of_le_of_lt (Nat.mul_le_mul_right _ (by omega)) hfits.1,
    Nat.lt_of_le_of_lt (Nat.mul_le_mul_right _ (Nat.sub_le_sub_right hle _)) hfits.2⟩

theorem height_mono (hle : x ≤ y) : m.height x ≤ m.height y :=
  Nat.add_le_add
    (Nat.div_le_div_right (Nat.mul_le_mul_right _ (Nat.sub_le_sub_right hle _)))
    (Nat.add_le_add_right (Nat.div_le_div_right (Nat.mul_le_mul_right _ (by omega))) _)

/-- Between two utilizations the products grow by no more than the steeper slope
says. -/
theorem products_le (hkinks : m.kink1 ≤ m.kink2) (hle : x ≤ y) :
    (y - m.kink2.mantissa.toNat) * m.slopes.jumpMultiplier.mantissa.toNat +
        min y m.kink1.mantissa.toNat * m.slopes.multiplier.mantissa.toNat ≤
      (x - m.kink2.mantissa.toNat) * m.slopes.jumpMultiplier.mantissa.toNat +
        min x m.kink1.mantissa.toNat * m.slopes.multiplier.mantissa.toNat +
        m.slopes.steepest * (y - x) := by
  rw [Wad.le_def] at hkinks
  obtain ⟨high, hhigh⟩ : ∃ high, y - m.kink2.mantissa.toNat = x - m.kink2.mantissa.toNat + high :=
    Nat.exists_eq_add_of_le (Nat.sub_le_sub_right hle _)
  obtain ⟨low, hlow⟩ : ∃ low, min y m.kink1.mantissa.toNat = min x m.kink1.mantissa.toNat + low :=
    Nat.exists_eq_add_of_le (by omega)
  have hstretches : high + low ≤ y - x := by omega
  have hgrowth : high * m.slopes.jumpMultiplier.mantissa.toNat +
      low * m.slopes.multiplier.mantissa.toNat ≤ m.slopes.steepest * (y - x) := calc
    _ ≤ high * m.slopes.steepest + low * m.slopes.steepest :=
      Nat.add_le_add (Nat.mul_le_mul_left _ (Nat.le_max_right _ _))
        (Nat.mul_le_mul_left _ (Nat.le_max_left _ _))
    _ = m.slopes.steepest * (high + low) := by rw [← Nat.add_mul, Nat.mul_comm]
    _ ≤ m.slopes.steepest * (y - x) := Nat.mul_le_mul_left _ hstretches
  rw [hhigh, hlow, Nat.add_mul, Nat.add_mul]
  omega

/-- A curve has no jumps. On one of the two stretches the lower utilization has
reached nothing, or as much as the upper one, so that only one rounding is left. -/
theorem height_gap (hkinks : m.kink1 ≤ m.kink2) (hle : x ≤ y) :
    (m.height y - m.height x) * 10 ^ 18 < m.slopes.steepest * (y - x) + 10 ^ 18 := by
  have hproducts := products_le hkinks hle
  rw [Wad.le_def] at hkinks
  unfold height
  rcases Nat.le_total x m.kink2.mantissa.toNat with hbelow | habove
  · rw [Nat.sub_eq_zero_of_le hbelow] at hproducts ⊢
    omega
  · rw [Nat.min_eq_right (Nat.le_trans hkinks habove),
      Nat.min_eq_right (Nat.le_trans (Nat.le_trans hkinks habove) hle)] at hproducts ⊢
    omega

end TripleSlope

/-- A curve with one kink as one with two. -/
def JumpRate.widened (m : JumpRate) : TripleSlope :=
  { slopes := m.slopes, kink1 := m.kink, kink2 := m.kink, roof := m.roof }

theorem JumpRate.rateAt_widened (m : JumpRate) (utilization : Wad) :
    m.widened.rateAt utilization = m.rateAt utilization := by
  unfold rateAt TripleSlope.rateAt
  split
  next hrising => exact (if_pos hrising).symm
  next hrising => exact (if_neg hrising).trans (if_neg hrising).symm

namespace RateModel

/-- The base rate and the slopes of a model. -/
def slopes : RateModel → Slopes
  | jumpRate m => m.slopes
  | tripleSlope m => m.slopes

/-- The curve of a model, with two kinks. -/
def curve : RateModel → TripleSlope
  | jumpRate m => m.widened
  | tripleSlope m => m

variable {m : RateModel}

theorem rateAt_curve (utilization : Wad) : m.curve.rateAt utilization = m.rateAt utilization := by
  cases m with
  | jumpRate m => exact m.rateAt_widened utilization
  | tripleSlope m => rfl

theorem curve_slopes (m : RateModel) : m.curve.slopes = m.slopes := by
  cases m <;> rfl

theorem Made.kinks_le (hm : m.Made) : m.curve.kink1 ≤ m.curve.kink2 := by
  cases hm with
  | jumpRate hmake => exact Nat.le_refl _
  | tripleSlope hmake =>
    simp only [TripleSlope.make, guard_eq_ok, pure_eq_ok] at hmake
    obtain ⟨-, hkinks, -, rfl⟩ := hmake
    exact Nat.le_of_not_lt hkinks

/-- Where a curve has a rate it has one at every lower utilization, which is not
higher, and not lower than the steeper slope and one rounding allow. -/
theorem Made.rateAt_mono (hm : m.Made) {x y rateY : Wad} (hle : x ≤ y)
    (hy : m.rateAt y = .ok rateY) :
    ∃ rateX, m.rateAt x = .ok rateX ∧ rateX ≤ rateY ∧
      (rateY.mantissa.toNat - rateX.mantissa.toNat) * 10 ^ 18 <
        m.slopes.steepest * (y.mantissa.toNat - x.mantissa.toNat) + 10 ^ 18 := by
  rw [← rateAt_curve, TripleSlope.rateAt_eq_ok hm.kinks_le] at hy
  obtain ⟨hfits, hheight⟩ := hy
  have hlower := m.curve.height_mono hle
  obtain ⟨rateX, hrateX⟩ := Wad.exists_toNat_eq
    (Nat.lt_of_le_of_lt (hheight ▸ hlower) rateY.mantissa.toNat_lt)
  refine ⟨rateX, ?_, ?_, ?_⟩
  · rw [← rateAt_curve, TripleSlope.rateAt_eq_ok hm.kinks_le]
    exact ⟨hfits.mono hle, hrateX.symm⟩
  · rw [Wad.le_def, hrateX, ← hheight]
    exact hlower
  · rw [hrateX, ← hheight, ← curve_slopes]
    exact TripleSlope.height_gap hm.kinks_le hle

end RateModel

/-! ## Utilization -/

section Utilization

variable {cash cash' borrows borrows' reserves : Amount} {u u' : Wad}

/-- Nothing is lent out, or the share has a denominator. -/
theorem utilizationRate_eq_ok (hu : utilizationRate cash borrows reserves = .ok u) :
    u.mantissa.toNat =
        borrows.toNat * 10 ^ 18 / (cash.toNat + borrows.toNat - reserves.toNat) ∧
      (borrows.toNat = 0 ∨ reserves.toNat < cash.toNat + borrows.toNat) := by
  unfold utilizationRate at hu
  split at hu
  next hborrows =>
    obtain rfl := pure_eq_ok.mp hu
    rw [hborrows, Amount.toNat_zero, Nat.zero_mul, Nat.zero_div]
    exact ⟨rfl, .inl rfl⟩
  next hborrows =>
    simp only [bind_eq_ok, Amount.add_eq_ok, Amount.sub_eq_ok] at hu
    obtain ⟨sum, hsum, supplied, hsupplied, hratio⟩ := hu
    have hpositive := Wad.denominator_pos hratio
    have hdifference : cash.toNat + borrows.toNat - reserves.toNat = supplied.toNat := by omega
    refine ⟨?_, .inr (by omega)⟩
    rw [hdifference]
    exact Wad.ofRatio_eq_ok hratio

/-- More cash is a smaller share lent out. -/
theorem utilizationRate_anti_cash (hle : cash ≤ cash')
    (hu : utilizationRate cash borrows reserves = .ok u)
    (hu' : utilizationRate cash' borrows reserves = .ok u') : u' ≤ u := by
  obtain ⟨hvalue, hpositive⟩ := utilizationRate_eq_ok hu
  obtain ⟨hvalue', -⟩ := utilizationRate_eq_ok hu'
  rw [Amount.le_def] at hle
  rw [Wad.le_def, hvalue, hvalue']
  rcases hpositive with hnone | hpositive
  · simp [hnone]
  · exact Nat.div_le_div_left (by omega) (by omega)

/-- A share of `a` in `k + a` grows with `a`. -/
theorem share_mono {a b k scale : Nat} (hle : a ≤ b) :
    a * scale / (k + a) ≤ b * scale / (k + b) := by
  rcases Nat.eq_zero_or_pos a with rfl | hpositive
  · simp
  · rw [Nat.le_div_iff_mul_le (by omega)]
    -- the other denominator is cleared as well, where `a * b` is on both sides
    refine Nat.le_of_mul_le_mul_right ?_ (show 0 < k + a by omega)
    calc a * scale / (k + a) * (k + b) * (k + a)
      _ = a * scale / (k + a) * (k + a) * (k + b) := Nat.mul_right_comm _ _ _
      _ ≤ a * scale * (k + b) := Nat.mul_le_mul_right _ (Nat.div_mul_le_self _ _)
      _ = (a * k + a * b) * scale := by rw [Nat.mul_right_comm, Nat.mul_add]
      _ ≤ (b * k + a * b) * scale :=
        Nat.mul_le_mul_right _ (Nat.add_le_add_right (Nat.mul_le_mul_right _ hle) _)
      _ = b * scale * (k + a) := by rw [Nat.mul_right_comm, Nat.mul_add, Nat.mul_comm a b]

/-- As long as the reserves are in cash, more debt is a larger share lent out. -/
theorem utilizationRate_mono_borrows (hle : borrows ≤ borrows') (hreserves : reserves ≤ cash)
    (hu : utilizationRate cash borrows reserves = .ok u)
    (hu' : utilizationRate cash borrows' reserves = .ok u') : u ≤ u' := by
  obtain ⟨hvalue, -⟩ := utilizationRate_eq_ok hu
  obtain ⟨hvalue', -⟩ := utilizationRate_eq_ok hu'
  rw [Amount.le_def] at hle hreserves
  rw [Wad.le_def, hvalue, hvalue', Nat.sub_add_comm hreserves, Nat.sub_add_comm hreserves]
  exact share_mono hle

end Utilization

namespace RateModel

variable {m : RateModel} {cash cash' borrows borrows' reserves : Amount} {rate rate' : Wad}

theorem borrowRate_eq_ok : m.borrowRate cash borrows reserves = .ok rate ↔
    ∃ u, utilizationRate cash borrows reserves = .ok u ∧ m.rateAt (min u m.roof) = .ok rate := by
  simp [borrowRate, utilization]

/-- Rates follow the utilizations they are taken at, below the roof and above. -/
theorem Made.borrowRate_le (hm : m.Made) {u u' : Wad} (hle : u ≤ u')
    (hrate : m.rateAt (min u m.roof) = .ok rate)
    (hrate' : m.rateAt (min u' m.roof) = .ok rate') : rate ≤ rate' := by
  have hclamped : min u m.roof ≤ min u' m.roof := by
    rw [Wad.le_def] at hle ⊢
    rw [Wad.toNat_min, Wad.toNat_min]
    omega
  obtain ⟨lower, hlower, hbelow, -⟩ := hm.rateAt_mono hclamped hrate'
  obtain rfl : lower = rate := Except.ok.inj (hlower.symm.trans hrate)
  exact hbelow

/-- The curves of models that can be set up rise and have no jumps, across
every kink, and have a rate below every utilization they have one at. What
borrowers pay therefore does not rise with the cash, and, as long as the
reserves are in cash, does not fall with the debt, up to the roof and above. -/
theorem Made.rates_monotone (hm : m.Made) :
    (∀ x y rateY : Wad, x ≤ y → m.rateAt y = .ok rateY →
      ∃ rateX, m.rateAt x = .ok rateX ∧ rateX ≤ rateY ∧
        (rateY.mantissa.toNat - rateX.mantissa.toNat) * 10 ^ 18 <
          m.slopes.steepest * (y.mantissa.toNat - x.mantissa.toNat) + 10 ^ 18) ∧
    (∀ (cash cash' borrows reserves : Amount) (rate rate' : Wad), cash ≤ cash' →
      m.borrowRate cash borrows reserves = .ok rate →
      m.borrowRate cash' borrows reserves = .ok rate' → rate' ≤ rate) ∧
    (∀ (cash borrows borrows' reserves : Amount) (rate rate' : Wad), borrows ≤ borrows' →
      reserves ≤ cash →
      m.borrowRate cash borrows reserves = .ok rate →
      m.borrowRate cash borrows' reserves = .ok rate' → rate ≤ rate') := by
  refine ⟨fun x y rateY hle hy => hm.rateAt_mono hle hy, ?_, ?_⟩
  · intro cash cash' borrows reserves rate rate' hle hrate hrate'
    obtain ⟨u, hu, hrate⟩ := borrowRate_eq_ok.mp hrate
    obtain ⟨u', hu', hrate'⟩ := borrowRate_eq_ok.mp hrate'
    exact hm.borrowRate_le (utilizationRate_anti_cash hle hu hu') hrate' hrate
  · intro cash borrows borrows' reserves rate rate' hle hreserves hrate hrate'
    obtain ⟨u, hu, hrate⟩ := borrowRate_eq_ok.mp hrate
    obtain ⟨u', hu', hrate'⟩ := borrowRate_eq_ok.mp hrate'
    exact hm.borrowRate_le (utilizationRate_mono_borrows hle hreserves hu hu') hrate hrate'

/-- Flat between six and eight tenths of utilization, and steep behind. -/
def sampleCurve : TripleSlope where
  slopes := {
    base := ⟨⟨10_000_000_000_000_000, by decide⟩⟩
    multiplier := ⟨⟨100_000_000_000_000_000, by decide⟩⟩
    jumpMultiplier := ⟨⟨2_000_000_000_000_000_000, by decide⟩⟩ }
  kink1 := ⟨⟨600_000_000_000_000_000, by decide⟩⟩
  kink2 := ⟨⟨800_000_000_000_000_000, by decide⟩⟩
  roof := 1

theorem sampleCurve_made : (tripleSlope sampleCurve).Made :=
  .tripleSlope (show TripleSlope.make sampleCurve.slopes sampleCurve.kink1 sampleCurve.kink2
    sampleCurve.roof = .ok sampleCurve from rfl)

/-- From the rising stretch to the steep one, and with less cash and more debt. -/
theorem sampleCurve_rates_monotone :
    (∃ rateX rateY : Wad, sampleCurve.rateAt ⟨⟨500_000_000_000_000_000, by decide⟩⟩ = .ok rateX ∧
      sampleCurve.rateAt ⟨⟨950_000_000_000_000_000, by decide⟩⟩ = .ok rateY ∧
      rateX ≤ rateY ∧
      (rateY.mantissa.toNat - rateX.mantissa.toNat) * 10 ^ 18 <
        2_000_000_000_000_000_000 * 450_000_000_000_000_000 + 10 ^ 18) ∧
    ∃ idle busy busier : Wad,
      (tripleSlope sampleCurve).borrowRate (.ofUInt64 900) (.ofUInt64 100) 0 = .ok idle ∧
      (tripleSlope sampleCurve).borrowRate (.ofUInt64 20) (.ofUInt64 100) 0 = .ok busy ∧
      (tripleSlope sampleCurve).borrowRate (.ofUInt64 20) (.ofUInt64 980) 0 = .ok busier ∧
      idle ≤ busy ∧ busy ≤ busier := by
  obtain ⟨hcurve, hcash, hborrows⟩ := sampleCurve_made.rates_monotone
  constructor
  · have hy : sampleCurve.rateAt ⟨⟨950_000_000_000_000_000, by decide⟩⟩ =
        .ok ⟨⟨370_000_000_000_000_000, by decide⟩⟩ :=
      (TripleSlope.rateAt_eq_ok (by decide)).mpr
        ⟨⟨by decide +kernel, by decide +kernel⟩, by decide +kernel⟩
    obtain ⟨rateX, hx, hle, hgap⟩ :=
      hcurve ⟨⟨500_000_000_000_000_000, by decide⟩⟩ _ _ (by decide +kernel) hy
    exact ⟨rateX, _, hx, hy, hle, Nat.lt_of_lt_of_le hgap (by decide +kernel)⟩
  · obtain ⟨idle, hidle⟩ : ∃ idle, (tripleSlope sampleCurve).borrowRate
      (.ofUInt64 900) (.ofUInt64 100) 0 = .ok idle := ⟨_, rfl⟩
    obtain ⟨busy, hbusy⟩ : ∃ busy, (tripleSlope sampleCurve).borrowRate
      (.ofUInt64 20) (.ofUInt64 100) 0 = .ok busy := ⟨_, rfl⟩
    obtain ⟨busier, hbusier⟩ : ∃ busier, (tripleSlope sampleCurve).borrowRate
      (.ofUInt64 20) (.ofUInt64 980) 0 = .ok busier := ⟨_, rfl⟩
    exact ⟨idle, busy, busier, hidle, hbusy, hbusier,
      hcash _ _ _ _ _ _ (by decide) hbusy hidle,
      hborrows _ _ _ _ _ _ (by decide) (by decide) hbusy hbusier⟩

end RateModel

end MoneyMarket
