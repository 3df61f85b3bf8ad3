import MoneyMarket.Json.Record
import MoneyMarket.RateModel.Yearly

/-! # Stored rate models

A stored model is a record that names its kind in the member `kind`. Stored
models are taken as they are, whatever their kinks and roof.
-/

namespace MoneyMarket

def RateModel.toJson : RateModel → Json
  | jumpRate m => .obj [
      ("kind", .str "jump_rate"),
      ("base_rate_per_second", Json.ofWad m.slopes.base),
      ("multiplier_per_second", Json.ofWad m.slopes.multiplier),
      ("jump_multiplier_per_second", Json.ofWad m.slopes.jumpMultiplier),
      ("kink", Json.ofWad m.kink),
      ("roof", Json.ofWad m.roof)]
  | tripleSlope m => .obj [
      ("kind", .str "triple_slope"),
      ("base_rate_per_second", Json.ofWad m.slopes.base),
      ("multiplier_per_second", Json.ofWad m.slopes.multiplier),
      ("jump_multiplier_per_second", Json.ofWad m.slopes.jumpMultiplier),
      ("kink1", Json.ofWad m.kink1),
      ("kink2", Json.ofWad m.kink2),
      ("roof", Json.ofWad m.roof)]

/-- The slopes in a stored model. -/
def Slopes.ofRecord? (r : Json.Record) : Option Slopes :=
  return {
    base := ← r.required? "base_rate_per_second" Json.asWad?
    multiplier := ← r.required? "multiplier_per_second" Json.asWad?
    jumpMultiplier := ← r.required? "jump_multiplier_per_second" Json.asWad? }

def RateModel.ofJson? (j : Json) : Option RateModel := do
  match ← Json.tagged? "kind" j with
  | ("jump_rate", fields) =>
    let r ← fields.record? ["base_rate_per_second", "multiplier_per_second",
      "jump_multiplier_per_second", "kink", "roof"]
    return .jumpRate {
      slopes := ← Slopes.ofRecord? r
      kink := ← r.required? "kink" Json.asWad?
      roof := ← r.required? "roof" Json.asWad? }
  | ("triple_slope", fields) =>
    let r ← fields.record? ["base_rate_per_second", "multiplier_per_second",
      "jump_multiplier_per_second", "kink1", "kink2", "roof"]
    return .tripleSlope {
      slopes := ← Slopes.ofRecord? r
      kink1 := ← r.required? "kink1" Json.asWad?
      kink2 := ← r.required? "kink2" Json.asWad?
      roof := ← r.required? "roof" Json.asWad? }
  | _ => none

def YearlyRateModel.toJson : YearlyRateModel → Json
  | jumpRate rates kink roof secondsPerYear => .obj [
      ("kind", .str "jump_rate"),
      ("base_rate_per_year", Json.ofDecimal rates.base),
      ("multiplier_per_year", Json.ofDecimal rates.multiplier),
      ("jump_multiplier_per_year", Json.ofDecimal rates.jumpMultiplier),
      ("kink", Json.ofDecimal kink),
      ("roof", Json.ofDecimal roof),
      ("seconds_per_year", Json.ofUInt64 secondsPerYear)]
  | tripleSlope rates kink1 kink2 roof secondsPerYear => .obj [
      ("kind", .str "triple_slope"),
      ("base_rate_per_year", Json.ofDecimal rates.base),
      ("multiplier_per_year", Json.ofDecimal rates.multiplier),
      ("jump_multiplier_per_year", Json.ofDecimal rates.jumpMultiplier),
      ("kink1", Json.ofDecimal kink1),
      ("kink2", Json.ofDecimal kink2),
      ("roof", Json.ofDecimal roof),
      ("seconds_per_year", Json.ofUInt64 secondsPerYear)]

/-- The yearly rates in a description. -/
def YearlyRates.ofRecord? (r : Json.Record) : Option YearlyRates :=
  return {
    base := ← r.required? "base_rate_per_year" Json.asDecimal?
    multiplier := ← r.required? "multiplier_per_year" Json.asDecimal?
    jumpMultiplier := ← r.required? "jump_multiplier_per_year" Json.asDecimal? }

/-- A description may leave out the roof, which then is one, and the seconds
per year. -/
def YearlyRateModel.ofJson? (j : Json) : Option YearlyRateModel := do
  match ← Json.tagged? "kind" j with
  | ("jump_rate", fields) =>
    let r ← fields.record? ["base_rate_per_year", "multiplier_per_year",
      "jump_multiplier_per_year", "kink", "roof", "seconds_per_year"]
    return .jumpRate
      (← YearlyRates.ofRecord? r)
      (← r.required? "kink" Json.asDecimal?)
      (← r.defaulted? "roof" Json.asDecimal? 1)
      (← r.defaulted? "seconds_per_year" Json.asUInt64? defaultSecondsPerYear)
  | ("triple_slope", fields) =>
    let r ← fields.record? ["base_rate_per_year", "multiplier_per_year",
      "jump_multiplier_per_year", "kink1", "kink2", "roof", "seconds_per_year"]
    return .tripleSlope
      (← YearlyRates.ofRecord? r)
      (← r.required? "kink1" Json.asDecimal?)
      (← r.required? "kink2" Json.asDecimal?)
      (← r.defaulted? "roof" Json.asDecimal? 1)
      (← r.defaulted? "seconds_per_year" Json.asUInt64? defaultSecondsPerYear)
  | _ => none

end MoneyMarket
