import MoneyMarket.Registry

/-! # Memberships

Which markets an account has entered, in the order in which it entered them.
An account that is in no market has no entry.
-/

namespace MoneyMarket

/-- The markets that accounts have entered. -/
abbrev Memberships := Registry AccountId (List MarketId)

namespace Memberships

/-- The markets of an account. -/
def of (r : Memberships) (account : AccountId) : List MarketId := r.getD account []

/-- Adds a market at the end of an account's markets. -/
def enter (r : Memberships) (account : AccountId) (market : MarketId) : Memberships :=
  r.insert account (r.of account ++ [market])

/-- The markets other than the given one, unless there are none. -/
def without (market : MarketId) (markets : List MarketId) : Option (List MarketId) :=
  match markets.filter (· ≠ market) with
  | [] => none
  | rest => some rest

/-- Takes a market away from an account. -/
def leave (r : Memberships) (account : AccountId) (market : MarketId) : Memberships :=
  match r.get? account with
  | none => r
  | some markets =>
    match without market markets with
    | none => r.erase account
    | some rest => r.insert account rest

/-- Takes a market away from all accounts. -/
def close (r : Memberships) (market : MarketId) : Memberships := r.filterMap (without market)

end Memberships

end MoneyMarket
