import MoneyMarket.Price.Oracle
import MoneyMarket.Proofs.Success

/-! # What a query can do

A quote comes out of the cache, and nothing changes, or the feed is asked: it
may not know the market, price it at zero or be too old with it, and only if
none of this is so does the quote get into the cache. A snapshot takes the
quotes in and passes over markets without a price.
-/

namespace MoneyMarket

namespace Oracle

variable {α β : Type} {o o' : Oracle} {market : MarketId} {now : Instant} {s : Prices}
  {requests : List (MarketId × Instant)}

/-! ## Running queries -/

/-- The result of a query, and the oracle after it. -/
def Query.runOn (query : Query α) (o : Oracle) : Except OracleError α × Oracle := query.run.run o

theorem Query.runOn_bind (query : Query α) (f : α → Query β) (o : Oracle) :
    (query >>= f).runOn o =
      match query.runOn o with
      | (.ok a, o') => (f a).runOn o'
      | (.error e, o') => (.error e, o') := by
  unfold runOn ExceptT.run StateT.run
  simp only [bind, ExceptT.bind, ExceptT.mk, StateT.bind, ExceptT.bindCont]
  cases query o with
  | mk result o' => cases result <;> rfl

theorem Query.runOn_bind_eq_ok {query : Query α} {f : α → Query β} {b : β} :
    (query >>= f).runOn o = (.ok b, o') ↔
      ∃ a o₁, query.runOn o = (.ok a, o₁) ∧ (f a).runOn o₁ = (.ok b, o') := by
  rw [runOn_bind]
  cases query.runOn o with
  | mk result o₁ => cases result <;> simp [and_assoc]

theorem Query.runOn_get_bind (f : Oracle → Query β) (o : Oracle) :
    (get >>= f).runOn o = (f o).runOn o := by
  rw [runOn_bind]
  rfl

theorem Query.runOn_set_bind (o' : Oracle) (f : PUnit → Query β) (o : Oracle) :
    (set o' >>= f).runOn o = (f ⟨⟩).runOn o' := by
  rw [runOn_bind]
  rfl

theorem Query.runOn_throw_bind (e : OracleError) (f : α → Query β) (o : Oracle) :
    (throw e >>= f).runOn o = (.error e, o) := by
  rw [runOn_bind]
  rfl

theorem Query.runOn_liftM_bind (answer : Except OracleError α) (f : α → Query β) (o : Oracle) :
    (liftM answer >>= f).runOn o =
      match answer with
      | .ok a => (f a).runOn o
      | .error e => (.error e, o) := by
  cases answer <;> rfl

theorem Query.runOn_pure (a : α) (o : Oracle) : (pure a : Query α).runOn o = (.ok a, o) := by
  rfl

theorem Query.runOn_tryCatch (query : Query α) (handler : OracleError → Query α) (o : Oracle) :
    (tryCatch query handler).runOn o =
      match query.runOn o with
      | (.ok a, o') => (.ok a, o')
      | (.error e, o') => (handler e).runOn o' := by
  unfold runOn ExceptT.run StateT.run
  simp only [tryCatch, tryCatchThe, MonadExceptOf.tryCatch, ExceptT.tryCatch, ExceptT.mk,
    bind, StateT.bind]
  cases query o with
  | mk result o' => cases result <;> rfl

/-! ## A quote -/

/-- The oracle after it has asked its feed. -/
def asked (o : Oracle) : Oracle :=
  { o with feed := { o.feed with fetchCount := o.feed.fetchCount + 1 } }

/-- How the request for a quote is answered, and the oracle after it. -/
inductive Quoted (o : Oracle) (market : MarketId) (now : Instant) :
    Except OracleError Quote → Oracle → Prop
  | cached {q : Quote} (hlive : o.cached? market now = some q) : Quoted o market now (.ok q) o
  | unknown (hmiss : o.cached? market now = none) (hfeed : o.feed.quotes.get? market = none) :
      Quoted o market now (.error (.marketNotFound market)) o.asked
  | unpriced {q : Quote} (hmiss : o.cached? market now = none)
      (hfeed : o.feed.quotes.get? market = some q) (hprice : q.price = 0) :
      Quoted o market now (.error (.zeroPrice market)) o.asked
  | stale {q : Quote} (hmiss : o.cached? market now = none)
      (hfeed : o.feed.quotes.get? market = some q) (hprice : q.price ≠ 0)
      (hstale : q.isStale now o.maxAge = true) :
      Quoted o market now (.error (.stalePrice market q.time o.maxAge)) o.asked
  | fetched {q : Quote} (hmiss : o.cached? market now = none)
      (hfeed : o.feed.quotes.get? market = some q) (hprice : q.price ≠ 0)
      (hfresh : q.isStale now o.maxAge = false) :
      Quoted o market now (.ok q) { o.asked with cache := o.cache.insert market q }

theorem quoted_of_runOn {answer : Except OracleError Quote}
    (hrun : (quote market now).runOn o = (answer, o')) : o.Quoted market now answer o' := by
  rw [quote, Query.runOn_get_bind] at hrun
  cases hmiss : o.cached? market now with
  | some q =>
      rw [hmiss] at hrun
      cases hrun
      exact .cached hmiss
  | none =>
      simp only [hmiss, fetch, PriceFeed.fetch, bind_assoc, Query.runOn_get_bind,
        Query.runOn_set_bind] at hrun
      cases hfeed : o.feed.quotes.get? market with
      | none =>
          rw [hfeed] at hrun
          cases hrun
          exact .unknown hmiss hfeed
      | some q =>
          simp only [hfeed, Query.runOn_liftM_bind] at hrun
          by_cases hprice : q.price = 0
          · have havailable : q.isAvailable = false := by simp [Quote.isAvailable, hprice]
            rw [havailable] at hrun
            cases hrun
            exact .unpriced hmiss hfeed hprice
          · have havailable : q.isAvailable = true := by simp [Quote.isAvailable, hprice]
            simp only [havailable, Bool.not_true, Bool.false_eq_true, if_false,
              Query.runOn_get_bind] at hrun
            cases hstale : q.isStale now o.maxAge with
            | true =>
                simp only [hstale, if_true, Query.runOn_throw_bind, Prod.mk.injEq] at hrun
                obtain ⟨rfl, rfl⟩ := hrun
                exact .stale hmiss hfeed hprice hstale
            | false =>
                simp only [hstale, Bool.false_eq_true, if_false, Query.runOn_set_bind,
                  Query.runOn_pure, Prod.mk.injEq] at hrun
                obtain ⟨rfl, rfl⟩ := hrun
                exact .fetched hmiss hfeed hprice hstale

/-! ## A snapshot -/

/-- The snapshot with an answer taken in. -/
def take (s : Prices) : Except OracleError Quote → Except OracleError Prices
  | .ok q => .ok (s.insert q)
  | .error (.stalePrice market lastUpdate maxAge) => .error (.stalePrice market lastUpdate maxAge)
  | .error (.marketNotFound _) | .error (.zeroPrice _) => .ok s

theorem runOn_extend (s : Prices) (request : MarketId × Instant) (o : Oracle) :
    (extend s request).runOn o =
      (take s ((quote request.1 request.2).runOn o).1,
        ((quote request.1 request.2).runOn o).2) := by
  rw [extend, Query.runOn_tryCatch, Query.runOn_bind]
  cases (quote request.1 request.2).runOn o with
  | mk answer o' =>
      cases answer with
      | ok q => rfl
      | error e => cases e <;> rfl

/-- To extend a snapshot is to ask for a quote and to take the answer in. -/
theorem quoted_of_extend {market : MarketId} {result : Except OracleError Prices}
    (hrun : (extend s (market, now)).runOn o = (result, o')) :
    ∃ answer, o.Quoted market now answer o' ∧ result = take s answer := by
  rw [runOn_extend, Prod.mk.injEq] at hrun
  obtain ⟨rfl, rfl⟩ := hrun
  exact ⟨_, quoted_of_runOn rfl, rfl⟩

end Oracle

end MoneyMarket
