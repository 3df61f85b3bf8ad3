import MoneyMarket.Controller.Error
import MoneyMarket.Json.Text
import MoneyMarket.Market.Terms

/-! # Controller settings

The settings of a controller are decimals, all with defaults, and are turned
into wads when the controller is set up. They may stand in a file.
-/

namespace MoneyMarket

/-- The settings of a controller, and what it gives to new markets. -/
structure ControllerSettings where
  closeFactor : Decimal := .tenths 5
  liquidationIncentive : Decimal := .hundredths 108
  maxCollateralFactor : Decimal := .tenths 9
  borrowRateMaxPerSecond : Decimal := .millionths 5
  defaultInitialExchangeRate : Decimal := .hundredths 2
  defaultFlashFeeBips : UInt64 := 8
  deriving DecidableEq

/-- Why a file holds no settings. -/
inductive SettingsFileError where
  | notFound
  | invalidData
  deriving DecidableEq

namespace ControllerSettings

/-- The least close factor. -/
def closeFactorMin : Decimal := .hundredths 5

/-- The greatest close factor. -/
def closeFactorMax : Decimal := .tenths 9

/-- Fails for the first setting that is out of bounds. -/
def validate (c : ControllerSettings) : Except ControllerError Unit := do
  if c.closeFactor < closeFactorMin ∨ closeFactorMax < c.closeFactor then
    throw <| .invalidParameter <|
      s!"close factor {c.closeFactor.text} outside [" ++
        s!"{closeFactorMin.text}, {closeFactorMax.text}]"
  if c.liquidationIncentive < 1 then
    throw (.invalidParameter s!"liquidation incentive {c.liquidationIncentive.text} below 1")
  if 1 < c.maxCollateralFactor then
    throw (.invalidParameter s!"max collateral factor {c.maxCollateralFactor.text} above 1")
  if c.defaultInitialExchangeRate ≤ 0 then
    throw (.invalidParameter "initial exchange rate must be positive")

/-- The terms of a new market under these settings. -/
def marketTerms (c : ControllerSettings) (version : MarketVersion) (rateModel : YearlyRateModel) :
    MarketTerms :=
  { version, rateModel
    initialExchangeRate := c.defaultInitialExchangeRate
    borrowRateMaxPerSecond := c.borrowRateMaxPerSecond
    flashFeeBips := c.defaultFlashFeeBips }

/-- The close factor that a controller is set up with. -/
def closeFactorWad (c : ControllerSettings) : Except ControllerError Wad :=
  liftM (Wad.ofDecimal c.closeFactor)

/-- The liquidation incentive that a controller is set up with. -/
def liquidationIncentiveWad (c : ControllerSettings) : Except ControllerError Wad :=
  liftM (Wad.ofDecimal c.liquidationIncentive)

/-- The greatest collateral factor that a controller is set up with. -/
def maxCollateralFactorWad (c : ControllerSettings) : Except ControllerError Wad :=
  liftM (Wad.ofDecimal c.maxCollateralFactor)

def toJson (c : ControllerSettings) : Json := .obj [
  ("close_factor", Json.ofDecimal c.closeFactor),
  ("liquidation_incentive", Json.ofDecimal c.liquidationIncentive),
  ("max_collateral_factor", Json.ofDecimal c.maxCollateralFactor),
  ("borrow_rate_max_per_second", Json.ofDecimal c.borrowRateMaxPerSecond),
  ("default_initial_exchange_rate", Json.ofDecimal c.defaultInitialExchangeRate),
  ("default_flash_fee_bips", Json.ofUInt64 c.defaultFlashFeeBips)]

/-- Reads settings; any of them may be left out. -/
def ofJson? (j : Json) : Option ControllerSettings := do
  let r ← j.record? ["close_factor", "liquidation_incentive", "max_collateral_factor",
    "borrow_rate_max_per_second", "default_initial_exchange_rate", "default_flash_fee_bips"]
  let default : ControllerSettings := {}
  return {
    closeFactor := ← r.defaulted? "close_factor" Json.asDecimal? default.closeFactor
    liquidationIncentive :=
      ← r.defaulted? "liquidation_incentive" Json.asDecimal? default.liquidationIncentive
    maxCollateralFactor :=
      ← r.defaulted? "max_collateral_factor" Json.asDecimal? default.maxCollateralFactor
    borrowRateMaxPerSecond :=
      ← r.defaulted? "borrow_rate_max_per_second" Json.asDecimal? default.borrowRateMaxPerSecond
    defaultInitialExchangeRate :=
      ← r.defaulted? "default_initial_exchange_rate" Json.asDecimal?
        default.defaultInitialExchangeRate
    defaultFlashFeeBips :=
      ← r.defaulted? "default_flash_fee_bips" Json.asUInt64? default.defaultFlashFeeBips }

/-- The settings in a file of the given content, if there is a file. -/
def ofFile : (content : Option String) → Except SettingsFileError ControllerSettings
  | none => .error .notFound
  | some content =>
    match (Json.ofText? content).bind ofJson? with
    | some c => .ok c
    | none => .error .invalidData

end ControllerSettings

end MoneyMarket
