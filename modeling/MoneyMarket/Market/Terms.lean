import MoneyMarket.Market.Reserves
import MoneyMarket.RateModel.Json

/-! # Setting up markets

A new market is empty and fresh. It is set up part by part, or at once from
terms in decimals.
-/

namespace MoneyMarket

/-- The terms of a new market. -/
structure MarketTerms where
  version : MarketVersion
  rateModel : YearlyRateModel
  reserveFactor : Decimal := .hundredths 20
  initialExchangeRate : Decimal := .hundredths 2
  borrowRateMaxPerSecond : Decimal := .millionths 5
  flashFeeBips : UInt64 := 8
  /-- The collateral cap in market tokens, zero for none. -/
  collateralCap : Amount := 0
  deriving DecidableEq

namespace Market

/-- An empty market, with the default ceiling and flashloan fee and without a
reserve factor. -/
def make (id : MarketId) (version : MarketVersion) (rateModel : RateModel)
    (initialExchangeRate : Wad) (now : UInt64) : Except MarketError Market := do
  if initialExchangeRate = 0 then
    throw (.invalidParameter "initial exchange rate must be positive")
  return {
    id, rateModel, initialExchangeRate
    kind :=
      match version with
      | .vanilla => .vanilla
      | .collateralCap => .collateralCap (.empty 0)
      | .wrappedNative => .wrappedNative
    reserveFactor := 0
    borrowRateMax := ⟨⟨5_000_000_000_000, by decide⟩⟩
    flashFeeBips := 8
    cash := 0
    totalBorrows := 0
    totalReserves := 0
    totalSupply := 0
    borrowIndex := 1
    accrualTimestamp := now
    balances := ∅
    debts := ∅ }

/-- The market with another reserve factor, which is at most one. -/
def withReserveFactor (m : Market) (reserveFactor : Wad) : Except MarketError Market :=
  if 1 < reserveFactor then .error (.reserveFactorAboveOne reserveFactor)
  else .ok { m with reserveFactor }

/-- The market with another ceiling for the borrow rate. -/
def withBorrowRateMax (m : Market) (borrowRateMax : Wad) : Market := { m with borrowRateMax }

/-- The market with another flashloan fee. -/
def withFlashFeeBips (m : Market) (flashFeeBips : UInt64) : Market := { m with flashFeeBips }

/-- The market with another collateral cap, if its version has one. -/
def withCollateralCap (m : Market) (cap : Amount) : Market :=
  match m.kind with
  | .collateralCap ledger => { m with kind := .collateralCap { ledger with cap } }
  | _ => m

/-- An empty market under the given terms. -/
def ofTerms (id : MarketId) (terms : MarketTerms) (now : UInt64) :
    Except MarketError Market := do
  let rateModel ← terms.rateModel.toRateModel.mapError .rateModel
  let initialExchangeRate ← Wad.ofDecimal terms.initialExchangeRate
  let m ← make id terms.version rateModel initialExchangeRate now
  let reserveFactor ← Wad.ofDecimal terms.reserveFactor
  let m ← m.withReserveFactor reserveFactor
  let borrowRateMax ← Wad.ofDecimal terms.borrowRateMaxPerSecond
  return ((m.withBorrowRateMax borrowRateMax).withFlashFeeBips terms.flashFeeBips)
    |>.withCollateralCap terms.collateralCap

end Market

namespace MarketTerms

def toJson (t : MarketTerms) : Json := .obj [
  ("version", Vocabulary.toJson t.version),
  ("rate_model", t.rateModel.toJson),
  ("reserve_factor", Json.ofDecimal t.reserveFactor),
  ("initial_exchange_rate", Json.ofDecimal t.initialExchangeRate),
  ("borrow_rate_max_per_second", Json.ofDecimal t.borrowRateMaxPerSecond),
  ("flash_fee_bips", Json.ofUInt64 t.flashFeeBips),
  ("collateral_cap", Json.ofAmount t.collateralCap)]

/-- All but the version and the rate model may be left out. -/
def ofJson? (j : Json) : Option MarketTerms := do
  let r ← j.record? ["version", "rate_model", "reserve_factor", "initial_exchange_rate",
    "borrow_rate_max_per_second", "flash_fee_bips", "collateral_cap"]
  let version ← r.required? "version" Vocabulary.ofJson?
  let rateModel ← r.required? "rate_model" YearlyRateModel.ofJson?
  let default : MarketTerms := { version, rateModel }
  return {
    version, rateModel
    reserveFactor := ← r.defaulted? "reserve_factor" Json.asDecimal? default.reserveFactor
    initialExchangeRate :=
      ← r.defaulted? "initial_exchange_rate" Json.asDecimal? default.initialExchangeRate
    borrowRateMaxPerSecond :=
      ← r.defaulted? "borrow_rate_max_per_second" Json.asDecimal? default.borrowRateMaxPerSecond
    flashFeeBips := ← r.defaulted? "flash_fee_bips" Json.asUInt64? default.flashFeeBips
    collateralCap := ← r.defaulted? "collateral_cap" Json.asAmount? default.collateralCap }

end MarketTerms

end MoneyMarket
