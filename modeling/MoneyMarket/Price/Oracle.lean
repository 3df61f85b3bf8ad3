import MoneyMarket.Price.Quote

/-! # The caching oracle

An oracle asks a feed for quotes and keeps the good ones for a while. A cached
quote is used again until it is older than the time to live. A fetched quote
is refused if it holds no price or is older than the age limit, and cached
otherwise. The clock is read by the caller.
-/

namespace MoneyMarket

/-- Why the oracle has no quote. -/
inductive OracleError where
  | marketNotFound (market : MarketId)
  | stalePrice (market : MarketId) (lastUpdate : Instant) (maxAge : UInt64)
  | zeroPrice (market : MarketId)
  deriving DecidableEq

/-- The wording of an oracle error. -/
def OracleError.message : OracleError → String
  | .marketNotFound market => "No price feed for market: " ++ market.text
  | .stalePrice market lastUpdate maxAge =>
    "Stale price for " ++ market.text ++
      s!": last update was {lastUpdate.text}, threshold is {maxAge}s"
  | .zeroPrice market => "Invalid price for " ++ market.text ++ ": zero price"

/-- A feed whose quotes are set by hand. It counts how often it was asked. -/
structure PriceFeed where
  quotes : Registry MarketId Quote
  fetchCount : Nat
  deriving DecidableEq

namespace PriceFeed

def empty : PriceFeed := ⟨∅, 0⟩

/-- The feed with a quote, in place of another one for the same market. -/
def insert (f : PriceFeed) (q : Quote) : PriceFeed :=
  { f with quotes := f.quotes.insert q.market q }

/-- The feed without a quote for a market. -/
def erase (f : PriceFeed) (market : MarketId) : PriceFeed :=
  { f with quotes := f.quotes.erase market }

/-- Asks for the quote of a market; asking in vain counts too. -/
def fetch (f : PriceFeed) (market : MarketId) : Except OracleError Quote × PriceFeed :=
  (match f.quotes.get? market with
    | some q => .ok q
    | none => .error (.marketNotFound market),
  { f with fetchCount := f.fetchCount + 1 })

/-- Asks for the quotes of several markets in turn. -/
def fetchAll (f : PriceFeed) : List MarketId → List (Except OracleError Quote) × PriceFeed
  | [] => ([], f)
  | market :: rest =>
    let (quote, f) := f.fetch market
    let (quotes, f) := f.fetchAll rest
    (quote :: quotes, f)

/-- The markets the feed has quotes for. -/
def coveredMarkets (f : PriceFeed) : List MarketId := f.quotes.keys

end PriceFeed

/-- An oracle over a feed. -/
structure Oracle where
  feed : PriceFeed
  /-- For how many seconds a cached quote is used. -/
  ttl : UInt64
  /-- How many seconds old a fetched quote may be. -/
  maxAge : UInt64
  cache : Registry MarketId Quote
  deriving DecidableEq

namespace Oracle

/-- An oracle that has cached nothing. -/
def make (feed : PriceFeed) (ttl maxAge : UInt64) : Oracle := ⟨feed, ttl, maxAge, ∅⟩

/-- Queries change the oracle whether they succeed or fail. -/
abbrev Query (α : Type) : Type := ExceptT OracleError (StateM Oracle) α

/-- The cached quote of a market, while it lives. -/
def cached? (o : Oracle) (market : MarketId) (now : Instant) : Option Quote :=
  (o.cache.get? market).filter fun q => !q.isStale now o.ttl

/-- Asks the feed. -/
def fetch (market : MarketId) : Query Quote := do
  let o ← get
  let (quote, feed) := o.feed.fetch market
  set { o with feed }
  quote

/-- The quote of a market at a time, from the cache or from the feed. -/
def quote (market : MarketId) (now : Instant) : Query Quote := do
  match (← get).cached? market now with
  | some q => return q
  | none =>
    let q ← fetch market
    if !q.isAvailable then throw (.zeroPrice market)
    let o ← get
    if q.isStale now o.maxAge then throw (.stalePrice market q.time o.maxAge)
    set { o with cache := o.cache.insert market q }
    return q

/-- Adds the quote of a market at a time to a snapshot. A market that the feed
does not know or prices at zero is left out. -/
def extend (s : Prices) (request : MarketId × Instant) : Query Prices :=
  tryCatch (return s.insert (← quote request.1 request.2)) fun e =>
    match e with
    | .marketNotFound _ => return s
    | .zeroPrice _ => return s
    | .stalePrice .. => throw e

/-- The snapshot of some markets, each asked for at its own time. -/
def snapshotAt (requests : List (MarketId × Instant)) : Query Prices :=
  requests.foldlM extend .empty

/-- The snapshot of some markets at a time. -/
def snapshot (markets : List MarketId) (now : Instant) : Query Prices :=
  snapshotAt (markets.map (·, now))

/-- Forgets the cached quote of a market. -/
def invalidate (o : Oracle) (market : MarketId) : Oracle :=
  { o with cache := o.cache.erase market }

/-- Forgets all cached quotes. -/
def clear (o : Oracle) : Oracle := { o with cache := ∅ }

end Oracle

end MoneyMarket
