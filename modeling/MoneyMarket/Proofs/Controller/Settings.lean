import MoneyMarket.Proofs.Controller.Administration
import MoneyMarket.Proofs.Decimals

/-! # Settings that pass validation

Validation compares decimals, and what is set up are wads. Cutting keeps the
bounds of the close factor and the liquidation incentive, so a controller that
is set up has parameters that its own setters accept. But validation looks for
no lower bound of the greatest collateral factor and not at all at the ceiling
of the borrow rate, and an initial exchange rate that it finds positive may be
cut to zero. These three are all that can go wrong afterwards.
-/

namespace MoneyMarket

open Operation

variable {s : ControllerSettings} {c : Controller} {admin : AccountId} {w : Wad}

/-! ## What validation checks -/

/-- Settings within their bounds. -/
structure ControllerSettings.Valid (s : ControllerSettings) : Prop where
  closeFactor_ge : closeFactorMin ≤ s.closeFactor
  closeFactor_le : s.closeFactor ≤ closeFactorMax
  liquidationIncentive_ge : 1 ≤ s.liquidationIncentive
  maxCollateralFactor_le : s.maxCollateralFactor ≤ 1
  initialExchangeRate_pos : 0 < s.defaultInitialExchangeRate

theorem ControllerSettings.validate_eq_ok : s.validate = .ok () ↔ s.Valid := by
  have hlast : ∀ e : ControllerError,
      (if s.defaultInitialExchangeRate ≤ 0 then throw e else pure () :
        Except ControllerError Unit) = .ok () ↔ 0 < s.defaultInitialExchangeRate := by
    intro e
    rw [← Decimal.not_le]
    split <;> simp [*]
  simp only [validate, guard_eq_ok, not_or, Decimal.not_lt, hlast]
  constructor
  · rintro ⟨⟨hmin, hmax⟩, hincentive, hfactor, hrate⟩
    exact ⟨hmin, hmax, hincentive, hfactor, hrate⟩
  · rintro ⟨hmin, hmax, hincentive, hfactor, hrate⟩
    exact ⟨⟨hmin, hmax⟩, hincentive, hfactor, hrate⟩

/-! ## What the setters enforce -/

/-- The wad of the least close factor. -/
def Controller.closeFactorFloor : Wad := ⟨.ofUInt64 50_000_000_000_000_000⟩

/-- The wad of the greatest close factor. -/
def Controller.closeFactorCeiling : Wad := ⟨.ofUInt64 900_000_000_000_000_000⟩

open Controller

theorem ofDecimal_closeFactorMin :
    Wad.ofDecimal ControllerSettings.closeFactorMin = .ok closeFactorFloor := by rfl

theorem ofDecimal_closeFactorMax :
    Wad.ofDecimal ControllerSettings.closeFactorMax = .ok closeFactorCeiling := by rfl

/-- A close factor is set if it is within the bounds. -/
theorem Operation.runOn_setCloseFactor_eq_ok {event : Event} {c' : Controller} :
    (setCloseFactor c.admin w).runOn c = (.ok event, c') ↔
      (closeFactorFloor ≤ w ∧ w ≤ closeFactorCeiling) ∧
        event = .newCloseFactor c.closeFactor w ∧ c' = { c with closeFactor := w } := by
  have hbounds : ¬(w < closeFactorFloor ∨ closeFactorCeiling < w) ↔
      closeFactorFloor ≤ w ∧ w ≤ closeFactorCeiling := by
    simp only [not_or, Wad.lt_def, Wad.le_def, Nat.not_lt]
  simp only [setCloseFactor, runOn_requireAdmin_bind_eq_ok, runOn_bind_eq_ok (x := liftM _),
    runOn_liftM_arithmetic, runOn_guard_eq_ok, runOn_get_bind, runOn_set_bind, runOn_pure_eq_ok,
    ofDecimal_closeFactorMin, ofDecimal_closeFactorMax, Prod.mk.injEq, mapError_eq_ok,
    Except.ok.injEq, true_and]
  constructor
  · rintro ⟨_, _, ⟨rfl, rfl⟩, _, _, ⟨rfl, rfl⟩, hw, rfl, rfl⟩
    exact ⟨hbounds.mp hw, rfl, rfl⟩
  · rintro ⟨hw, rfl, rfl⟩
    exact ⟨_, _, ⟨rfl, rfl⟩, _, _, ⟨rfl, rfl⟩, hbounds.mpr hw, rfl, rfl⟩

/-- A liquidation incentive is set if it is at least one. -/
theorem Operation.runOn_setLiquidationIncentive_eq_ok {event : Event} {c' : Controller} :
    (setLiquidationIncentive c.admin w).runOn c = (.ok event, c') ↔
      1 ≤ w ∧ event = .newLiquidationIncentive c.liquidationIncentive w ∧
        c' = { c with liquidationIncentive := w } := by
  have hbound : ¬w < 1 ↔ 1 ≤ w := Nat.not_lt
  simp only [setLiquidationIncentive, runOn_requireAdmin_bind_eq_ok, runOn_guard_eq_ok,
    runOn_get_bind, runOn_set_bind, runOn_pure_eq_ok, true_and, hbound]
  exact and_congr_right fun _ => and_congr_left fun _ => eq_comm

/-! ## What is set up -/

/-- Parameters that the setters would accept. The greatest collateral factor has
no setter. -/
structure Controller.WithinBounds (c : Controller) : Prop where
  closeFactor_ge : closeFactorFloor ≤ c.closeFactor
  closeFactor_le : c.closeFactor ≤ closeFactorCeiling
  liquidationIncentive_ge : 1 ≤ c.liquidationIncentive
  maxCollateralFactor_le : c.maxCollateralFactor ≤ 1

namespace ControllerSettings

theorem Valid.closeFactor_nonneg (hs : s.Valid) : 0 ≤ s.closeFactor :=
  Decimal.nonneg_of_le (by decide) hs.closeFactor_ge

theorem Valid.liquidationIncentive_nonneg (hs : s.Valid) : 0 ≤ s.liquidationIncentive :=
  Decimal.nonneg_of_le (by decide) hs.liquidationIncentive_ge

theorem ofDecimal_one : Wad.ofDecimal 1 = .ok 1 := by rfl

/-- Whatever is set up has parameters within the bounds. -/
theorem withinBounds_of_make (hc : Controller.make admin s = .ok c) : c.WithinBounds := by
  simp only [Controller.make, bind_eq_ok, pure_eq_ok, closeFactorWad, liquidationIncentiveWad,
    maxCollateralFactorWad, liftM_controller_eq_ok] at hc
  obtain ⟨⟨⟩, hvalidate, closeFactor, hclose, incentive, hincentive, factor, hfactor, rfl⟩ := hc
  have hs := validate_eq_ok.mp hvalidate
  exact {
    closeFactor_ge := Wad.ofDecimal_mono hs.closeFactor_ge ofDecimal_closeFactorMin hclose
    closeFactor_le := Wad.ofDecimal_mono hs.closeFactor_le hclose ofDecimal_closeFactorMax
    liquidationIncentive_ge :=
      Wad.ofDecimal_mono hs.liquidationIncentive_ge ofDecimal_one hincentive
    maxCollateralFactor_le := Wad.ofDecimal_mono hs.maxCollateralFactor_le hfactor ofDecimal_one }

theorem admin_of_make (hc : Controller.make admin s = .ok c) : c.admin = admin := by
  simp only [Controller.make, bind_eq_ok, pure_eq_ok] at hc
  obtain ⟨-, -, -, -, -, -, -, -, rfl⟩ := hc
  rfl

/-- Valid settings set up a controller, unless the greatest collateral factor is
negative. -/
theorem Valid.exists_make (hs : s.Valid) (hnonneg : 0 ≤ s.maxCollateralFactor)
    (admin : AccountId) : ∃ c, Controller.make admin s = .ok c := by
  obtain ⟨closeFactor, hclose, -⟩ := Wad.exists_ofDecimal hs.closeFactor_nonneg
  obtain ⟨incentive, hincentive, -⟩ := Wad.exists_ofDecimal hs.liquidationIncentive_nonneg
  obtain ⟨factor, hfactor, -⟩ := Wad.exists_ofDecimal hnonneg
  simp only [Controller.make, bind_eq_ok, pure_eq_ok, closeFactorWad, liquidationIncentiveWad,
    maxCollateralFactorWad, liftM_controller_eq_ok]
  exact ⟨_, (), validate_eq_ok.mpr hs, closeFactor, hclose, incentive, hincentive, factor, hfactor,
    rfl⟩

theorem Valid.make_of_neg (hs : s.Valid) (hfactor : s.maxCollateralFactor < 0)
    (admin : AccountId) : Controller.make admin s = .error (.arithmetic .underflow) := by
  obtain ⟨closeFactor, hclose, -⟩ := Wad.exists_ofDecimal hs.closeFactor_nonneg
  obtain ⟨incentive, hincentive, -⟩ := Wad.exists_ofDecimal hs.liquidationIncentive_nonneg
  have hunderflow := Wad.ofDecimal_of_neg hfactor
  rw [Controller.make, validate_eq_ok.mpr hs, closeFactorWad, hclose, liquidationIncentiveWad,
    hincentive, maxCollateralFactorWad, hunderflow]
  rfl

/-! ## New markets -/

section Terms

variable {version : MarketVersion} {model : YearlyRateModel} {rateModel : RateModel}

/-- The parts of setting up a market that the settings leave open. -/
theorem ofTerms_eq (hmodel : model.toRateModel = .ok rateModel) (id : MarketId) (now : UInt64) :
    Market.ofTerms id (s.marketTerms version model) now = do
      let rate ← Wad.ofDecimal s.defaultInitialExchangeRate
      let m ← Market.make id version rateModel rate now
      let max ← Wad.ofDecimal s.borrowRateMaxPerSecond
      return ((({ m with reserveFactor := ⟨.ofUInt64 200_000_000_000_000_000⟩ } : Market)
        |>.withBorrowRateMax max).withFlashFeeBips s.defaultFlashFeeBips).withCollateralCap 0 := by
  unfold Market.ofTerms marketTerms
  simp only [hmodel]
  rfl

/-- A rate of at least the last place is not cut to zero. -/
theorem exists_make_market (hrate : Decimal.lastPlace ≤ s.defaultInitialExchangeRate)
    (id : MarketId) (version : MarketVersion) (rateModel : RateModel) (now : UInt64) :
    ∃ rate m, Wad.ofDecimal s.defaultInitialExchangeRate = .ok rate ∧
      Market.make id version rateModel rate now = .ok m := by
  obtain ⟨rate, hcut, -⟩ := Wad.exists_ofDecimal (Decimal.nonneg_of_le (by decide) hrate)
  have hne : rate ≠ 0 := by
    rw [ne_eq, Wad.ofDecimal_eq_zero_iff hcut, Decimal.not_lt]
    exact hrate
  simp only [Market.make, guard_eq_ok, pure_eq_ok]
  exact ⟨rate, _, hcut, hne, rfl⟩

/-- A market is created under the terms of the settings, unless the initial
exchange rate is cut to zero or the ceiling of the borrow rate is negative. -/
theorem exists_ofTerms (hmodel : model.toRateModel = .ok rateModel)
    (hrate : Decimal.lastPlace ≤ s.defaultInitialExchangeRate)
    (hmax : 0 ≤ s.borrowRateMaxPerSecond) (id : MarketId) (now : UInt64) :
    ∃ m, Market.ofTerms id (s.marketTerms version model) now = .ok m := by
  obtain ⟨rate, m, hcut, hm⟩ := exists_make_market hrate id version rateModel now
  obtain ⟨max, hmax, -⟩ := Wad.exists_ofDecimal hmax
  rw [ofTerms_eq hmodel]
  simp only [bind_eq_ok, liftM_market_eq_ok, pure_eq_ok]
  exact ⟨_, rate, hcut, m, hm, max, hmax, rfl⟩

theorem Valid.ofTerms_of_lt_lastPlace (hs : s.Valid) (hmodel : model.toRateModel = .ok rateModel)
    (hrate : s.defaultInitialExchangeRate < Decimal.lastPlace) (id : MarketId) (now : UInt64) :
    Market.ofTerms id (s.marketTerms version model) now =
      .error (.invalidParameter "initial exchange rate must be positive") := by
  have hnonneg : 0 ≤ s.defaultInitialExchangeRate := Int.le_of_lt hs.initialExchangeRate_pos
  obtain ⟨rate, hcut, -⟩ := Wad.exists_ofDecimal hnonneg
  obtain rfl := (Wad.ofDecimal_eq_zero_iff hcut).mpr hrate
  rw [ofTerms_eq hmodel, hcut]
  rfl

theorem ofTerms_of_neg (hmodel : model.toRateModel = .ok rateModel)
    (hrate : Decimal.lastPlace ≤ s.defaultInitialExchangeRate)
    (hmax : s.borrowRateMaxPerSecond < 0) (id : MarketId) (now : UInt64) :
    Market.ofTerms id (s.marketTerms version model) now = .error (.arithmetic .underflow) := by
  obtain ⟨rate, m, hcut, hm⟩ := exists_make_market hrate id version rateModel now
  rw [ofTerms_eq hmodel]
  simp only [bind_eq_error, liftM_market_eq_ok, liftM_market_eq_arithmetic]
  exact .inr ⟨rate, hcut, .inr ⟨m, hm, .inl (Wad.ofDecimal_of_neg hmax)⟩⟩

end Terms

end ControllerSettings

/-! ## Usable settings -/

/-- Settings that pass validation set up a controller whose parameters are within
the bounds that its setters enforce, so it takes them again, and their terms
create markets with every rate model. Three decimals are the exception: a negative
greatest collateral factor, an initial exchange rate that is positive but less
than the last place of a wad, and a negative ceiling of the borrow rate. Each
of these fails when it is first made use of. -/
theorem ControllerSettings.usable_of_validate (hs : s.validate = .ok ()) :
    (∀ admin,
      (0 ≤ s.maxCollateralFactor → ∃ c, Controller.make admin s = .ok c ∧ c.WithinBounds ∧
        (setCloseFactor admin c.closeFactor).runOn c =
          (.ok (.newCloseFactor c.closeFactor c.closeFactor), c) ∧
        (setLiquidationIncentive admin c.liquidationIncentive).runOn c =
          (.ok (.newLiquidationIncentive c.liquidationIncentive c.liquidationIncentive), c)) ∧
      (s.maxCollateralFactor < 0 →
        Controller.make admin s = .error (.arithmetic .underflow))) ∧
    ∀ id version model rateModel now, model.toRateModel = .ok rateModel →
      (Decimal.lastPlace ≤ s.defaultInitialExchangeRate → 0 ≤ s.borrowRateMaxPerSecond →
        ∃ m, Market.ofTerms id (s.marketTerms version model) now = .ok m) ∧
      (s.defaultInitialExchangeRate < Decimal.lastPlace →
        Market.ofTerms id (s.marketTerms version model) now =
          .error (.invalidParameter "initial exchange rate must be positive")) ∧
      (Decimal.lastPlace ≤ s.defaultInitialExchangeRate → s.borrowRateMaxPerSecond < 0 →
        Market.ofTerms id (s.marketTerms version model) now =
          .error (.arithmetic .underflow)) := by
  have hvalid := validate_eq_ok.mp hs
  constructor
  · intro admin
    refine ⟨?_, fun hneg => hvalid.make_of_neg hneg admin⟩
    intro hnonneg
    obtain ⟨c, hc⟩ := hvalid.exists_make hnonneg admin
    have hbounds := withinBounds_of_make hc
    obtain rfl := admin_of_make hc
    refine ⟨c, hc, hbounds, ?_, ?_⟩
    · exact runOn_setCloseFactor_eq_ok.mpr
        ⟨⟨hbounds.closeFactor_ge, hbounds.closeFactor_le⟩, rfl, rfl⟩
    · exact runOn_setLiquidationIncentive_eq_ok.mpr
        ⟨hbounds.liquidationIncentive_ge, rfl, rfl⟩
  · intro id version model rateModel now hmodel
    exact ⟨fun hrate hmax => exists_ofTerms hmodel hrate hmax id now,
      fun hrate => hvalid.ofTerms_of_lt_lastPlace hmodel hrate id now,
      fun hrate hmax => ofTerms_of_neg hmodel hrate hmax id now⟩

/-- Rates of a market for a stable asset. -/
def ControllerSettings.sampleRates : YearlyRateModel :=
  .jumpRate ⟨.hundredths 2, .tenths 2, .tenths 20⟩ (.tenths 8) 1
    YearlyRateModel.defaultSecondsPerYear

/-- The default settings are usable. -/
theorem ControllerSettings.default_usable_of_validate :
    validate {} = .ok () ∧ (∃ c, Controller.make ⟨"admin"⟩ {} = .ok c ∧ c.WithinBounds) ∧
      ∃ rateModel m, sampleRates.toRateModel = .ok rateModel ∧
        Market.ofTerms ⟨"jUSD"⟩ (marketTerms {} .collateralCap sampleRates) 0 = .ok m := by
  have hvalid : validate {} = .ok () := by rfl
  obtain ⟨hmake, hterms⟩ := usable_of_validate hvalid
  obtain ⟨rateModel, hmodel⟩ : ∃ rateModel, sampleRates.toRateModel = .ok rateModel := ⟨_, rfl⟩
  obtain ⟨c, hc, hbounds, -⟩ := (hmake ⟨"admin"⟩).1 (by decide)
  obtain ⟨m, hm⟩ := (hterms ⟨"jUSD"⟩ .collateralCap _ _ 0 hmodel).1 (by decide) (by decide)
  exact ⟨hvalid, ⟨c, hc, hbounds⟩, rateModel, m, hmodel, hm⟩

/-- A greatest collateral factor of `-0.1`. -/
def ControllerSettings.negativeFactor : ControllerSettings :=
  { maxCollateralFactor := { Decimal.tenths 1 with negative := true } }

/-- An initial exchange rate of `10 ^ -19`. -/
def ControllerSettings.vanishingRate : ControllerSettings :=
  { defaultInitialExchangeRate := { (1 : Decimal) with scale := 19, scale_le := by decide } }

/-- A ceiling of the borrow rate of `-0.000005`. -/
def ControllerSettings.negativeCeiling : ControllerSettings :=
  { borrowRateMaxPerSecond := { Decimal.millionths 5 with negative := true } }

/-- They pass validation, and set up no controller or no markets. -/
theorem ControllerSettings.validated_unusable :
    (negativeFactor.validate = .ok () ∧
      Controller.make ⟨"admin"⟩ negativeFactor = .error (.arithmetic .underflow)) ∧
    (∃ rateModel, sampleRates.toRateModel = .ok rateModel) ∧
    (vanishingRate.validate = .ok () ∧
      Market.ofTerms ⟨"jUSD"⟩ (vanishingRate.marketTerms .vanilla sampleRates) 0 =
        .error (.invalidParameter "initial exchange rate must be positive")) ∧
    negativeCeiling.validate = .ok () ∧
      Market.ofTerms ⟨"jUSD"⟩ (negativeCeiling.marketTerms .vanilla sampleRates) 0 =
        .error (.arithmetic .underflow) :=
  ⟨⟨rfl, rfl⟩, ⟨_, rfl⟩, ⟨rfl, rfl⟩, rfl, rfl⟩

end MoneyMarket
