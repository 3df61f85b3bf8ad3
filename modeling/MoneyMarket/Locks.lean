import MoneyMarket.Controller.Error

/-! # Market locks

Services that share markets lock the ones they need before they work on them.
Locks are taken once each and in the order of the markets, whatever the order
of the request, so that no two requests can wait for each other.
-/

namespace MoneyMarket

/-- How a market is locked. -/
inductive LockMode where
  | shared
  | exclusive
  deriving DecidableEq

/-- The markets that have a lock. -/
structure LockTable where
  markets : Registry MarketId Unit
  deriving DecidableEq

namespace LockTable

/-- No market has a lock. -/
def empty : LockTable := ⟨∅⟩

/-- Gives a market a lock, if it has none. -/
def register (t : LockTable) (market : MarketId) : LockTable := ⟨t.markets.insert market ()⟩

def contains (t : LockTable) (market : MarketId) : Bool := t.markets.contains market

/-- The order in which the markets of a request are locked. It fails for the
first one in that order that has no lock. -/
def lockOrder (t : LockTable) (request : List MarketId) :
    Except ControllerError (List MarketId) :=
  (Name.sortDistinct request).mapM fun market =>
    if t.contains market then .ok market else .error (.marketNotListed market)

/-- The locks that a request takes, one after the other. -/
def acquire (t : LockTable) (mode : LockMode) (request : List MarketId) :
    Except ControllerError (List (MarketId × LockMode)) :=
  return (← t.lockOrder request).map (·, mode)

end LockTable

end MoneyMarket
