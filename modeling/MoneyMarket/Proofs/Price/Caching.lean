import MoneyMarket.Proofs.Price.Quoting

/-! # What the cache may hold

The prices of a feed are set and removed while an oracle caches them, and all
times are told by clocks that may run as they like. In every run a quote stays
under the market that it is for, and none without a price gets into the cache.
So an answered quote is for the market asked for, and has a price, and a
snapshot leaves a market out only if there was no price to be had for it.
-/

namespace MoneyMarket

/-! ## Runs -/

/-- A call of a feed. A price that is set is stamped with the clock. -/
inductive PriceFeed.Call where
  | setPrice (market : MarketId) (price : Wad) (now : Instant)
  | setQuote (q : Quote)
  | removePrice (market : MarketId)
  | fetch (market : MarketId)

/-- The feed after a call. -/
def PriceFeed.after (f : PriceFeed) : Call → PriceFeed
  | .setPrice market price now => f.insert ⟨market, price, now, "mock"⟩
  | .setQuote q => f.insert q
  | .removePrice market => f.erase market
  | .fetch market => (f.fetch market).2

namespace Oracle

/-- A call of an oracle, or of the feed behind it. Every market of a snapshot is
asked for at its own time. -/
inductive Call where
  | feed (call : PriceFeed.Call)
  | quote (market : MarketId) (now : Instant)
  | snapshot (requests : List (MarketId × Instant))
  | invalidate (market : MarketId)
  | clear

/-- The oracle after a call, which may have failed. -/
def after (o : Oracle) : Call → Oracle
  | .feed call => { o with feed := o.feed.after call }
  | .quote market now => ((Oracle.quote market now).runOn o).2
  | .snapshot requests => ((snapshotAt requests).runOn o).2
  | .invalidate market => o.invalidate market
  | .clear => o.clear

/-- Oracles that calls lead to. -/
inductive Reachable : Oracle → Prop
  | made (calls : List PriceFeed.Call) (ttl maxAge : UInt64) :
      Reachable (make (calls.foldl PriceFeed.after .empty) ttl maxAge)
  | called {o : Oracle} (call : Call) (ho : Reachable o) : Reachable (o.after call)

end Oracle

/-! ## Quotes in their places -/

/-- Every quote is for the market that it stands under. -/
def PriceFeed.Filed (f : PriceFeed) : Prop :=
  ∀ market q, f.quotes.get? market = some q → q.market = market

namespace PriceFeed

variable {f : PriceFeed}

theorem Filed.insert (hf : f.Filed) (q : Quote) : (f.insert q).Filed := by
  intro market q' hget
  rw [PriceFeed.insert, Registry.get?_insert] at hget
  split at hget
  next heq => rw [← Option.some.inj hget, heq]
  next => exact hf market q' hget

theorem Filed.after (hf : f.Filed) (call : Call) : (f.after call).Filed := by
  cases call with
  | setPrice market price now => exact hf.insert _
  | setQuote q => exact hf.insert q
  | removePrice market =>
      intro other q hget
      rw [PriceFeed.after, PriceFeed.erase, Registry.get?_erase] at hget
      split at hget
      next => cases hget
      next => exact hf other q hget
  | fetch market => exact hf

theorem filed_foldl (calls : List Call) : (calls.foldl PriceFeed.after .empty).Filed := by
  suffices hall : ∀ f : PriceFeed, f.Filed → (calls.foldl PriceFeed.after f).Filed by
    apply hall
    rintro market q ⟨⟩
  induction calls with
  | nil => exact fun f hf => hf
  | cons call rest ih => exact fun f hf => ih _ (hf.after call)

end PriceFeed

namespace Oracle

variable {o o' : Oracle} {market : MarketId} {now : Instant} {q : Quote} {s s' : Prices}
  {requests : List (MarketId × Instant)}

/-- A feed and a cache with all quotes in their places, and with a price for
each one cached. -/
structure Sound (o : Oracle) : Prop where
  feed : o.feed.Filed
  cache : ∀ market q, o.cache.get? market = some q → q.market = market ∧ q.price ≠ 0

/-! ## A quote -/

theorem cached?_eq_some (hlive : o.cached? market now = some q) :
    o.cache.get? market = some q ∧ q.isStale now o.ttl = false := by
  unfold cached? at hlive
  rw [Option.filter_eq_some_iff] at hlive
  exact ⟨hlive.1, by simpa using hlive.2⟩

theorem Quoted.sound {answer : Except OracleError Quote} (hquoted : o.Quoted market now answer o')
    (ho : o.Sound) : o'.Sound := by
  cases hquoted with
  | cached => exact ho
  | unknown | unpriced | stale => exact ⟨ho.feed, ho.cache⟩
  | @fetched q _ hfeed hprice _ =>
      refine ⟨ho.feed, ?_⟩
      intro other q' hget
      rw [Registry.get?_insert] at hget
      split at hget
      next heq =>
        cases hget
        exact ⟨heq ▸ ho.feed market q hfeed, hprice⟩
      next => exact ho.cache other q' hget

/-- An answered quote is for its market and has a price. It is cached and alive,
or has been fetched just now and is not too old; in any case it is cached then. -/
theorem Quoted.of_ok (hquoted : o.Quoted market now (.ok q) o') (ho : o.Sound) :
    (q.market = market ∧ q.price ≠ 0) ∧
      (o.cache.get? market = some q ∧ q.isStale now o.ttl = false ∧ o' = o ∨
        o.cached? market now = none ∧ o.feed.quotes.get? market = some q ∧
          q.isStale now o.maxAge = false ∧
          o' = { o.asked with cache := o.cache.insert market q }) := by
  cases hquoted with
  | cached hlive =>
      obtain ⟨hget, hfresh⟩ := cached?_eq_some hlive
      exact ⟨ho.cache market q hget, .inl ⟨hget, hfresh, rfl⟩⟩
  | fetched hmiss hfeed hprice hfresh =>
      exact ⟨⟨ho.feed market q hfeed, hprice⟩, .inr ⟨hmiss, hfeed, hfresh, rfl⟩⟩

/-- A market is passed over if nothing alive is cached for it and the feed has no
price. -/
theorem Quoted.of_passed {answer : Except OracleError Quote}
    (hquoted : o.Quoted market now answer o') (hanswer : ∀ q, answer ≠ .ok q)
    (htaken : take s answer = .ok s') :
    s' = s ∧ o.cached? market now = none ∧
      ∀ q, o.feed.quotes.get? market = some q → q.price = 0 := by
  cases hquoted with
  | cached => exact absurd rfl (hanswer _)
  | fetched => exact absurd rfl (hanswer _)
  | stale => cases htaken
  | unknown hmiss hfeed =>
      cases htaken
      refine ⟨rfl, hmiss, ?_⟩
      intro q hget
      rw [hfeed] at hget
      cases hget
  | unpriced hmiss hfeed hprice =>
      cases htaken
      refine ⟨rfl, hmiss, ?_⟩
      intro q' hget
      cases hfeed.symm.trans hget
      exact hprice

/-! ## A snapshot -/

theorem quote?_insert (s : Prices) (q : Quote) (market : MarketId) :
    (s.insert q).quote? market = if q.market = market then some q else s.quote? market :=
  Registry.get?_insert ..

/-- A snapshot that has taken in quotes of some markets. -/
structure Collects (markets : List MarketId) (s s' : Prices) : Prop where
  keeps : ∀ market, s'.quote? market = none → s.quote? market = none
  adds : ∀ market q, s'.quote? market = some q → s.quote? market = some q ∨
    market ∈ markets ∧ q.market = market ∧ q.price ≠ 0

theorem Collects.refl (markets : List MarketId) (s : Prices) : Collects markets s s :=
  ⟨fun _ hnone => hnone, fun _ _ hget => .inl hget⟩

theorem Collects.trans {first rest : List MarketId} {s'' : Prices} (hfirst : Collects first s s')
    (hrest : Collects rest s' s'') : Collects (first ++ rest) s s'' := by
  constructor
  · exact fun market hnone => hfirst.keeps market (hrest.keeps market hnone)
  · intro market q hget
    rcases hrest.adds market q hget with hget | ⟨hmarket, hq⟩
    · rcases hfirst.adds market q hget with hget | ⟨hmarket, hq⟩
      · exact .inl hget
      · exact .inr ⟨List.mem_append_left _ hmarket, hq⟩
    · exact .inr ⟨List.mem_append_right _ hmarket, hq⟩

theorem collects_of_extend (ho : o.Sound)
    (hrun : (extend s (market, now)).runOn o = (.ok s', o')) : Collects [market] s s' := by
  obtain ⟨answer, hquoted, htaken⟩ := quoted_of_extend hrun
  cases answer with
  | error e =>
      obtain ⟨rfl, -⟩ := hquoted.of_passed (fun _ => nofun) htaken.symm
      exact .refl _ _
  | ok q =>
      cases htaken
      obtain ⟨⟨hmarket, hprice⟩, -⟩ := hquoted.of_ok ho
      constructor
      · intro other hnone
        rw [quote?_insert] at hnone
        split at hnone
        next => cases hnone
        next => exact hnone
      · intro other q' hget
        rw [quote?_insert] at hget
        split at hget
        next heq =>
          cases hget
          exact .inr ⟨List.mem_singleton.mpr (heq.symm.trans hmarket), heq, hprice⟩
        next => exact .inl hget

theorem sound_of_extend {result : Except OracleError Prices} (ho : o.Sound)
    (hrun : (extend s (market, now)).runOn o = (result, o')) : o'.Sound := by
  obtain ⟨answer, hquoted, -⟩ := quoted_of_extend hrun
  exact hquoted.sound ho

/-- Each request leaves the oracle sound, also one that ends the snapshot. -/
theorem sound_of_foldlM (ho : o.Sound) : ((requests.foldlM extend s).runOn o).2.Sound := by
  induction requests generalizing s o with
  | nil => exact ho
  | cons request rest ih =>
      rw [List.foldlM_cons, Query.runOn_bind]
      cases hrun : (extend s request).runOn o with
      | mk result o₁ =>
          have ho₁ := sound_of_extend ho hrun
          cases result with
          | ok s₁ => exact ih ho₁
          | error e => exact ho₁

theorem collects_of_foldlM (ho : o.Sound)
    (hrun : (requests.foldlM extend s).runOn o = (.ok s', o')) :
    Collects (requests.map Prod.fst) s s' := by
  induction requests generalizing s o with
  | nil =>
      cases hrun
      exact .refl _ _
  | cons request rest ih =>
      rw [List.foldlM_cons, Query.runOn_bind_eq_ok] at hrun
      obtain ⟨s₁, o₁, hfirst, hrest⟩ := hrun
      exact (collects_of_extend ho hfirst).trans (ih (sound_of_extend ho hfirst) hrest)

/-- A market that a snapshot leaves out was passed over at each of its requests. -/
theorem passed_of_snapshotAt {before later : List (MarketId × Instant)} (ho : o.Sound)
    (hrun : (snapshotAt (before ++ (market, now) :: later)).runOn o = (.ok s, o'))
    (homitted : s.quote? market = none) :
    ∃ s₁ o₁, (snapshotAt before).runOn o = (.ok s₁, o₁) ∧ o₁.cached? market now = none ∧
      ∀ q, o₁.feed.quotes.get? market = some q → q.price = 0 := by
  rw [snapshotAt, List.foldlM_append, Query.runOn_bind_eq_ok] at hrun
  obtain ⟨s₁, o₁, hbefore, hrun⟩ := hrun
  rw [List.foldlM_cons, Query.runOn_bind_eq_ok] at hrun
  obtain ⟨s₂, o₂, hextend, hlater⟩ := hrun
  have ho₁ : o₁.Sound := by
    have hsound : ((before.foldlM extend .empty).runOn o).2.Sound := sound_of_foldlM ho
    rw [hbefore] at hsound
    exact hsound
  have hnone := (collects_of_foldlM (sound_of_extend ho₁ hextend) hlater).keeps market homitted
  obtain ⟨answer, hquoted, htaken⟩ := quoted_of_extend hextend
  refine ⟨s₁, o₁, hbefore, ?_⟩
  cases answer with
  | error e => exact (hquoted.of_passed (fun _ => nofun) htaken.symm).2
  | ok q =>
      -- a quote would have been taken in and kept
      cases htaken
      rw [quote?_insert, if_pos (hquoted.of_ok ho₁).1.1] at hnone
      cases hnone

/-! ## Whole runs -/

theorem Sound.after (ho : o.Sound) (call : Call) : (o.after call).Sound := by
  cases call with
  | feed call => exact ⟨ho.feed.after call, ho.cache⟩
  | quote market now => exact (quoted_of_runOn rfl).sound ho
  | snapshot requests => exact sound_of_foldlM ho
  | invalidate market =>
      refine ⟨ho.feed, ?_⟩
      intro other q hget
      rw [Oracle.after, invalidate, Registry.get?_erase] at hget
      split at hget
      next => cases hget
      next => exact ho.cache other q hget
  | clear =>
      refine ⟨ho.feed, ?_⟩
      rintro other q ⟨⟩

theorem Reachable.sound (ho : o.Reachable) : o.Sound := by
  induction ho with
  | made calls ttl maxAge =>
      refine ⟨PriceFeed.filed_foldl calls, ?_⟩
      rintro market q ⟨⟩
  | called call _ ih => exact ih.after call

theorem Reachable.foldl (ho : o.Reachable) (calls : List Call) :
    (calls.foldl Oracle.after o).Reachable := by
  induction calls generalizing o with
  | nil => exact ho
  | cons call rest ih => exact ih (ho.called call)

/-- In every run a cached quote is for its market and has a price. So is and has
every answered quote, which is a live one from the cache or has just been
fetched and is not too old. A snapshot holds only quotes for the markets asked
for, each in its place and with a price, and whenever it came to a market that
it leaves out, nothing alive was cached for that market and the feed had no
price for it. -/
theorem Reachable.quotes_sound (ho : o.Reachable) :
    (∀ market q, o.cache.get? market = some q → q.market = market ∧ q.price ≠ 0) ∧
    (∀ market now q o', (quote market now).runOn o = (.ok q, o') →
      (q.market = market ∧ q.price ≠ 0) ∧
        (o.cache.get? market = some q ∧ q.isStale now o.ttl = false ∧ o' = o ∨
          o.cached? market now = none ∧ o.feed.quotes.get? market = some q ∧
            q.isStale now o.maxAge = false ∧
            o' = { o.asked with cache := o.cache.insert market q })) ∧
    ∀ requests s o', (snapshotAt requests).runOn o = (.ok s, o') →
      (∀ market q, s.quote? market = some q →
        market ∈ requests.map Prod.fst ∧ q.market = market ∧ q.price ≠ 0) ∧
      ∀ before market now later, requests = before ++ (market, now) :: later →
        s.quote? market = none →
          ∃ s₁ o₁, (snapshotAt before).runOn o = (.ok s₁, o₁) ∧ o₁.cached? market now = none ∧
            ∀ q, o₁.feed.quotes.get? market = some q → q.price = 0 := by
  have hsound := ho.sound
  refine ⟨hsound.cache, ?_, ?_⟩
  · intro market now q o' hrun
    exact (quoted_of_runOn hrun).of_ok hsound
  · intro requests s o' hrun
    constructor
    · intro market q hget
      rcases (collects_of_foldlM hsound hrun).adds market q hget with hempty | hcollected
      · cases hempty
      · exact hcollected
    · rintro before market now later rfl homitted
      exact passed_of_snapshotAt hsound hrun homitted

/-! ## A sample -/

/-- A price of one, a price of zero, and a quote that is cached. -/
def sampleCalls : List Call :=
  [.feed (.setPrice ⟨"jUSD"⟩ 1 (.ofSeconds 0)), .feed (.setPrice ⟨"jETH"⟩ 0 (.ofSeconds 0)),
    .quote ⟨"jUSD"⟩ (.ofSeconds 0)]

def sample : Oracle := sampleCalls.foldl Oracle.after (make .empty 60 300)

theorem sample_reachable : sample.Reachable := (Reachable.made [] 60 300).foldl sampleCalls

/-- The priced market twice, first from the cache and then from the feed, and
between a market of no price and an unknown one. -/
def sampleRequests : List (MarketId × Instant) :=
  [(⟨"jUSD"⟩, .ofSeconds 30), (⟨"jETH"⟩, .ofSeconds 30), (⟨"jBTC"⟩, .ofSeconds 31),
    (⟨"jUSD"⟩, .ofSeconds 90)]

theorem sample_quotes_sound :
    ∃ s o' q, (snapshotAt sampleRequests).runOn sample = (.ok s, o') ∧
      s.quote? ⟨"jUSD"⟩ = some q ∧ q.market = ⟨"jUSD"⟩ ∧ q.price ≠ 0 ∧
      s.quote? ⟨"jETH"⟩ = none ∧
      ∃ s₁ o₁, (snapshotAt (sampleRequests.take 1)).runOn sample = (.ok s₁, o₁) ∧
        o₁.cached? ⟨"jETH"⟩ (.ofSeconds 30) = none ∧
        ∀ q, o₁.feed.quotes.get? ⟨"jETH"⟩ = some q → q.price = 0 := by
  have hquotes : ((snapshotAt sampleRequests).runOn sample).1.toOption.map
      (fun s => ((s.quote? ⟨"jUSD"⟩).isSome, (s.quote? ⟨"jETH"⟩).isSome)) =
        some (true, false) := by decide +kernel
  obtain ⟨-, -, hsnapshot⟩ := sample_reachable.quotes_sound
  cases hrun : (snapshotAt sampleRequests).runOn sample with
  | mk result o' =>
      rw [hrun] at hquotes
      cases result with
      | error e => cases hquotes
      | ok s =>
          obtain ⟨hpriced, homitted⟩ := Prod.mk.inj (Option.some.inj hquotes)
          obtain ⟨q, hq⟩ := Option.isSome_iff_exists.mp hpriced
          have hnone : s.quote? ⟨"jETH"⟩ = none := by simpa using homitted
          obtain ⟨hfound, hpassed⟩ := hsnapshot _ s o' hrun
          obtain ⟨-, hmarket, hprice⟩ := hfound ⟨"jUSD"⟩ q hq
          exact ⟨s, o', q, rfl, hq, hmarket, hprice, hnone,
            hpassed (sampleRequests.take 1) _ _ (sampleRequests.drop 2) rfl hnone⟩

end Oracle

end MoneyMarket
