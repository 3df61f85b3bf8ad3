import Mathlib.Algebra.Group.Int.Defs
import Mathlib.Algebra.Group.Nat.Defs
import MoneyMarket.Proofs.Price.Caching

/-! # Age limits

A limit below `2 ^ 63` is compared with the age of a quote as the number that it
is. Any other one is compared as a negative number, so that a quote of no age is
too old for it. Unless the longer one of two limits is of this kind and the
shorter one is not, it lets pass whatever the shorter one lets pass: a query
that succeeds also succeeds with a longer age limit, and what the cache answers
it also answers with a longer time to live.
-/

namespace MoneyMarket

namespace Quote

variable {q : Quote} {now : Instant} {limit longer : UInt64}

theorem toInt_toInt64_of_lt (hlimit : limit.toNat < 2 ^ 63) :
    limit.toInt64.toInt = limit.toNat := by
  rw [Int64.toInt, UInt64.toBitVec_toInt64, BitVec.toInt_eq_toNat_cond, UInt64.toNat_toBitVec,
    if_pos (by omega)]

theorem toInt_toInt64_of_le (hlimit : 2 ^ 63 ≤ limit.toNat) :
    limit.toInt64.toInt = limit.toNat - 2 ^ 64 := by
  rw [Int64.toInt, UInt64.toBitVec_toInt64, BitVec.toInt_eq_toNat_cond, UInt64.toNat_toBitVec,
    if_neg (by omega)]
  rfl

theorem isStale_iff_of_lt (hlimit : limit.toNat < 2 ^ 63) :
    q.isStale now limit = true ↔ (limit.toNat : Int) < now.secondsSince q.time := by
  rw [isStale, decide_eq_true_iff, toInt_toInt64_of_lt hlimit]

theorem isStale_iff_of_le (hlimit : 2 ^ 63 ≤ limit.toNat) :
    q.isStale now limit = true ↔ (limit.toNat : Int) - 2 ^ 64 < now.secondsSince q.time := by
  rw [isStale, decide_eq_true_iff, toInt_toInt64_of_le hlimit]

/-- Two limits of one kind are compared as what they are. -/
theorem isStale_antitone (hle : limit ≤ longer)
    (hkind : longer.toNat < 2 ^ 63 ∨ 2 ^ 63 ≤ limit.toNat) (hfresh : q.isStale now limit = false) :
    q.isStale now longer = false := by
  have hle' : limit.toNat ≤ longer.toNat := UInt64.le_iff_toNat_le.mp hle
  rw [← Bool.not_eq_true] at hfresh ⊢
  rcases hkind with hlonger | hlimit
  · rw [isStale_iff_of_lt (by omega)] at hfresh
    rw [isStale_iff_of_lt hlonger]
    omega
  · rw [isStale_iff_of_le hlimit] at hfresh
    rw [isStale_iff_of_le (by omega)]
    omega

end Quote

namespace Oracle

variable {o o' : Oracle} {market : MarketId} {now : Instant} {q : Quote} {limit : UInt64}
  {answer : Except OracleError Quote}

/-- The ways to answer a request exclude each other. -/
theorem Quoted.unique {other : Except OracleError Quote} {o'' : Oracle}
    (hquoted : o.Quoted market now answer o') (hother : o.Quoted market now other o'') :
    answer = other ∧ o' = o'' := by
  cases hquoted <;> cases hother <;> simp_all

theorem runOn_eq_of_quoted (hquoted : o.Quoted market now answer o') :
    (quote market now).runOn o = (answer, o') := by
  obtain ⟨hanswer, ho'⟩ := (quoted_of_runOn rfl).unique hquoted
  exact Prod.ext hanswer ho'

/-- A query does not look at the age limit before it has a quote to return. -/
theorem Quoted.of_longer_maxAge (hquoted : o.Quoted market now (.ok q) o')
    (hle : o.maxAge ≤ limit) (hkind : limit.toNat < 2 ^ 63 ∨ 2 ^ 63 ≤ o.maxAge.toNat) :
    Quoted { o with maxAge := limit } market now (.ok q) { o' with maxAge := limit } := by
  cases hquoted with
  | cached hlive => exact .cached hlive
  | fetched hmiss hfeed hprice hfresh =>
      exact .fetched (o := { o with maxAge := limit }) hmiss hfeed hprice
        (Quote.isStale_antitone hle hkind hfresh)

theorem cached?_of_longer_ttl (hlive : o.cached? market now = some q) (hle : o.ttl ≤ limit)
    (hkind : limit.toNat < 2 ^ 63 ∨ 2 ^ 63 ≤ o.ttl.toNat) :
    cached? { o with ttl := limit } market now = some q := by
  obtain ⟨hget, hfresh⟩ := cached?_eq_some hlive
  refine Option.filter_eq_some_iff.mpr ⟨hget, ?_⟩
  simpa using Quote.isStale_antitone hle hkind hfresh

/-- A quote is too old for a limit below `2 ^ 63` exactly if more whole seconds
have passed than the limit says, and for any other limit exactly if more have
passed than the limit says less `2 ^ 64`. Unless only the longer one of two
limits is `2 ^ 63` or more, a query that succeeds also succeeds with the longer
age limit, with the same quote, and one that is answered from the cache is also
answered from it, without a fetch, with the longer time to live. -/
theorem longer_limits_accept (o : Oracle) (market : MarketId) (now : Instant) (q : Quote)
    (limit : UInt64) :
    (limit.toNat < 2 ^ 63 →
      (q.isStale now limit = true ↔ (limit.toNat : Int) < now.secondsSince q.time)) ∧
    (2 ^ 63 ≤ limit.toNat →
      (q.isStale now limit = true ↔ (limit.toNat : Int) - 2 ^ 64 < now.secondsSince q.time)) ∧
    (∀ o', o.maxAge ≤ limit → limit.toNat < 2 ^ 63 ∨ 2 ^ 63 ≤ o.maxAge.toNat →
      (quote market now).runOn o = (.ok q, o') →
        (quote market now).runOn { o with maxAge := limit } =
          (.ok q, { o' with maxAge := limit })) ∧
    (o.ttl ≤ limit → limit.toNat < 2 ^ 63 ∨ 2 ^ 63 ≤ o.ttl.toNat →
      o.cached? market now = some q →
        cached? { o with ttl := limit } market now = some q ∧
        (quote market now).runOn { o with ttl := limit } = (.ok q, { o with ttl := limit })) := by
  refine ⟨Quote.isStale_iff_of_lt, Quote.isStale_iff_of_le, ?_, ?_⟩
  · intro o' hle hkind hrun
    exact runOn_eq_of_quoted ((quoted_of_runOn hrun).of_longer_maxAge hle hkind)
  · intro hle hkind hlive
    have hlive' := cached?_of_longer_ttl hlive hle hkind
    exact ⟨hlive', runOn_eq_of_quoted (.cached hlive')⟩

/-- The quote that the sample has cached. -/
def sampleQuote : Quote := ⟨⟨"jUSD"⟩, 1, .ofSeconds 0, "mock"⟩

/-- The longest limit that is compared as the number that it is. -/
def longestLimit : UInt64 := 9223372036854775807

theorem sample_asks :
    sample.cached? ⟨"jUSD"⟩ (.ofSeconds 90) = none ∧
    sample.feed.quotes.get? ⟨"jUSD"⟩ = some sampleQuote ∧ sampleQuote.price ≠ 0 := by
  decide +kernel

theorem sample_fetched (hfresh : sampleQuote.isStale (.ofSeconds 90) limit = false) :
    (quote ⟨"jUSD"⟩ (.ofSeconds 90)).runOn { sample with maxAge := limit } =
      (.ok sampleQuote, { sample.asked with
        maxAge := limit, cache := sample.cache.insert ⟨"jUSD"⟩ sampleQuote }) := by
  obtain ⟨hmiss, hfeed, hprice⟩ := sample_asks
  have hquoted := Quoted.fetched (o := { sample with maxAge := limit }) hmiss hfeed hprice hfresh
  exact runOn_eq_of_quoted hquoted

theorem sample_stale (hstale : sampleQuote.isStale (.ofSeconds 90) limit = true) :
    (quote ⟨"jUSD"⟩ (.ofSeconds 90)).runOn { sample with maxAge := limit } =
      (.error (.stalePrice ⟨"jUSD"⟩ (.ofSeconds 0) limit),
        { sample.asked with maxAge := limit }) := by
  obtain ⟨hmiss, hfeed, hprice⟩ := sample_asks
  have hquoted := Quoted.stale (o := { sample with maxAge := limit }) hmiss hfeed hprice hstale
  exact runOn_eq_of_quoted hquoted

theorem sample_longestLimit :
    (sampleQuote.isStale (.ofSeconds 90) longestLimit = true ↔
      (longestLimit.toNat : Int) < Instant.secondsSince (.ofSeconds 90) (.ofSeconds 0)) ∧
    (∃ o', (quote ⟨"jUSD"⟩ (.ofSeconds 90)).runOn sample = (.ok sampleQuote, o') ∧
      (quote ⟨"jUSD"⟩ (.ofSeconds 90)).runOn { sample with maxAge := longestLimit } =
        (.ok sampleQuote, { o' with maxAge := longestLimit })) ∧
    sample.cached? ⟨"jUSD"⟩ (.ofSeconds 30) = some sampleQuote ∧
    (quote ⟨"jUSD"⟩ (.ofSeconds 30)).runOn { sample with ttl := longestLimit } =
      (.ok sampleQuote, { sample with ttl := longestLimit }) := by
  obtain ⟨hstale, -, hmaxAge, -⟩ :=
    longer_limits_accept sample ⟨"jUSD"⟩ (.ofSeconds 90) sampleQuote longestLimit
  obtain ⟨-, -, -, httl⟩ :=
    longer_limits_accept sample ⟨"jUSD"⟩ (.ofSeconds 30) sampleQuote longestLimit
  have hrun : (quote ⟨"jUSD"⟩ (.ofSeconds 90)).runOn sample = (.ok sampleQuote, _) :=
    sample_fetched (by decide +kernel)
  have hlive : sample.cached? ⟨"jUSD"⟩ (.ofSeconds 30) = some sampleQuote := by decide +kernel
  refine ⟨hstale (by decide), ?_, hlive, ?_⟩
  · exact ⟨_, hrun, hmaxAge _ (by decide) (by decide) hrun⟩
  · exact (httl (by decide) (by decide) hlive).2

/-- The largest limit of all is read as minus one. A quote is too old for it as
soon as it is made: with it as the age limit a query fails that succeeds with
300 seconds, and with it as the time to live the cache misses what it hits with
60 seconds. -/
theorem largest_limit_rejects :
    Instant.secondsSince (.ofSeconds 0) sampleQuote.time = 0 ∧
    sampleQuote.isStale (.ofSeconds 0) 18446744073709551615 = true ∧
    ((quote ⟨"jUSD"⟩ (.ofSeconds 90)).runOn { sample with maxAge := 300 }).1 = .ok sampleQuote ∧
    ((quote ⟨"jUSD"⟩ (.ofSeconds 90)).runOn { sample with maxAge := 18446744073709551615 }).1 =
      .error (.stalePrice ⟨"jUSD"⟩ (.ofSeconds 0) 18446744073709551615) ∧
    cached? { sample with ttl := 60 } ⟨"jUSD"⟩ (.ofSeconds 30) = some sampleQuote ∧
    cached? { sample with ttl := 18446744073709551615 } ⟨"jUSD"⟩ (.ofSeconds 30) = none := by
  have hfetched := congrArg Prod.fst (@sample_fetched 300 (by decide +kernel))
  have hstale := congrArg Prod.fst (@sample_stale 18446744073709551615 (by decide +kernel))
  exact ⟨by decide +kernel, by decide +kernel, hfetched, hstale,
    by decide +kernel, by decide +kernel⟩

end Oracle

end MoneyMarket
