import MoneyMarket.Price.Instant
import MoneyMarket.Registry
import MoneyMarket.Wad

/-! # Quotes and snapshots

A quote is the price of one unit of a market's underlying, observed at some
time. A price of zero says that there is no price. A snapshot holds the quotes
that one call of the engine works with.
-/

namespace MoneyMarket

/-- An observed price. -/
structure Quote where
  market : MarketId
  price : Wad
  time : Instant
  /-- Where the price comes from. -/
  source : String
  deriving DecidableEq

namespace Quote

/-- Whether the quote holds a price. -/
def isAvailable (q : Quote) : Bool := q.price ≠ 0

/-- Whether more whole seconds than an age limit have passed since the quote
was observed. The limit is read as a signed 64-bit number, so one of `2 ^ 63`
or more is negative. -/
def isStale (q : Quote) (now : Instant) (maxAge : UInt64) : Bool :=
  maxAge.toInt64.toInt < now.secondsSince q.time

end Quote

/-- The quotes that a call works with, at most one for a market. -/
structure Prices where
  quotes : Registry MarketId Quote
  deriving DecidableEq

namespace Prices

def empty : Prices := ⟨∅⟩

/-- The snapshot with a quote, in place of another one for the same market. -/
def insert (s : Prices) (q : Quote) : Prices := ⟨s.quotes.insert q.market q⟩

/-- The snapshot without a quote for a market. -/
def erase (s : Prices) (market : MarketId) : Prices := ⟨s.quotes.erase market⟩

/-- The quote for a market, whether it holds a price or not. -/
def quote? (s : Prices) (market : MarketId) : Option Quote := s.quotes.get? market

/-- The price of a market, unless there is no quote or the quote holds no
price. -/
def price? (s : Prices) (market : MarketId) : Option Wad :=
  ((s.quote? market).filter Quote.isAvailable).map Quote.price

def size (s : Prices) : Nat := s.quotes.size

def isEmpty (s : Prices) : Bool := s.quotes.isEmpty

end Prices

end MoneyMarket
