import MoneyMarket.Market
import MoneyMarket.RateModel.Json

/-! # Stored markets

A market is stored as a record of all its figures. Stored figures are taken as
they are; nothing checks that they fit together.
-/

namespace MoneyMarket

namespace Debt

def toJson (s : Debt) : Json := .obj [
  ("principal", Json.ofAmount s.principal),
  ("interest_index", Json.ofWad s.interestIndex)]

def ofJson? (j : Json) : Option Debt := do
  let r ← j.record? ["principal", "interest_index"]
  return {
    principal := ← r.required? "principal" Json.asAmount?
    interestIndex := ← r.required? "interest_index" Json.asWad? }

end Debt

namespace CollateralLedger

def toJson (l : CollateralLedger) : Json := .obj [
  ("collateral_cap", Json.ofAmount l.cap),
  ("total_collateral_tokens", Json.ofAmount l.total),
  ("account_collateral_tokens", Json.ofRegistry Json.ofAmount l.tokens)]

def ofJson? (j : Json) : Option CollateralLedger := do
  let r ← j.record? ["collateral_cap", "total_collateral_tokens", "account_collateral_tokens"]
  return {
    cap := ← r.required? "collateral_cap" Json.asAmount?
    total := ← r.required? "total_collateral_tokens" Json.asAmount?
    tokens := ← r.required? "account_collateral_tokens" (Json.asRegistryOf? Json.asAmount?) }

end CollateralLedger

namespace MarketKind

def toJson : MarketKind → Json
  | vanilla => .str "Vanilla"
  | collateralCap ledger => .obj [("CollateralCap", ledger.toJson)]
  | wrappedNative => .str "WrappedNative"

def ofJson? (j : Json) : Option MarketKind := do
  let (name, held) ← j.choice?
  match name, held with
  | "CollateralCap", some ledger => return .collateralCap (← CollateralLedger.ofJson? ledger)
  | "Vanilla", held => if Json.holdsNothing held then some .vanilla else none
  | "WrappedNative", held => if Json.holdsNothing held then some .wrappedNative else none
  | _, _ => none

end MarketKind

namespace Market

def toJson (m : Market) : Json := .obj [
  ("id", Json.ofName m.id),
  ("kind", m.kind.toJson),
  ("rate_model", m.rateModel.toJson),
  ("reserve_factor", Json.ofWad m.reserveFactor),
  ("initial_exchange_rate", Json.ofWad m.initialExchangeRate),
  ("borrow_rate_max", Json.ofWad m.borrowRateMax),
  ("flash_fee_bips", Json.ofUInt64 m.flashFeeBips),
  ("cash", Json.ofAmount m.cash),
  ("total_borrows", Json.ofAmount m.totalBorrows),
  ("total_reserves", Json.ofAmount m.totalReserves),
  ("total_supply", Json.ofAmount m.totalSupply),
  ("borrow_index", Json.ofWad m.borrowIndex),
  ("accrual_timestamp", Json.ofUInt64 m.accrualTimestamp),
  ("account_tokens", Json.ofRegistry Json.ofAmount m.balances),
  ("account_borrows", Json.ofRegistry Debt.toJson m.debts)]

def ofJson? (j : Json) : Option Market := do
  let r ← j.record? ["id", "kind", "rate_model", "reserve_factor", "initial_exchange_rate",
    "borrow_rate_max", "flash_fee_bips", "cash", "total_borrows", "total_reserves",
    "total_supply", "borrow_index", "accrual_timestamp", "account_tokens", "account_borrows"]
  return {
    id := ← r.required? "id" Json.asName?
    kind := ← r.required? "kind" MarketKind.ofJson?
    rateModel := ← r.required? "rate_model" RateModel.ofJson?
    reserveFactor := ← r.required? "reserve_factor" Json.asWad?
    initialExchangeRate := ← r.required? "initial_exchange_rate" Json.asWad?
    borrowRateMax := ← r.required? "borrow_rate_max" Json.asWad?
    flashFeeBips := ← r.required? "flash_fee_bips" Json.asUInt64?
    cash := ← r.required? "cash" Json.asAmount?
    totalBorrows := ← r.required? "total_borrows" Json.asAmount?
    totalReserves := ← r.required? "total_reserves" Json.asAmount?
    totalSupply := ← r.required? "total_supply" Json.asAmount?
    borrowIndex := ← r.required? "borrow_index" Json.asWad?
    accrualTimestamp := ← r.required? "accrual_timestamp" Json.asUInt64?
    balances := ← r.required? "account_tokens" (Json.asRegistryOf? Json.asAmount?)
    debts := ← r.required? "account_borrows" (Json.asRegistryOf? Debt.ofJson?) }

end Market

end MoneyMarket
