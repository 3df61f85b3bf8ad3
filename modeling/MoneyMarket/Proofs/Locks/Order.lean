import MoneyMarket.Locks
import MoneyMarket.Proofs.Entries
import MoneyMarket.Proofs.Success

/-! # The order of locks

A request is given one lock for each market that it names, in ascending order
of the markets, or it is refused for the least of its markets that has no lock.
The answer depends only on the set of the markets named, and any two requests
are given the locks of the markets that both name in the same order.
-/

namespace MoneyMarket

open Name

namespace LockTable

variable {t : LockTable} {mode mode' : LockMode} {request request' : List MarketId}
  {locks locks' : List (MarketId × LockMode)}

theorem lockOrder_of_contains (hall : ∀ market ∈ request, t.contains market = true) :
    t.lockOrder request = .ok (sortDistinct request) :=
  mapM_check_eq_ok fun market hmarket => hall market (mem_sortDistinct.mp hmarket)

/-- The least market of a request that has no lock. -/
structure LeastMissing (t : LockTable) (request : List MarketId) (market : MarketId) : Prop where
  mem : market ∈ request
  missing : t.contains market = false
  least : ∀ other ∈ request, t.contains other = false → other = market ∨ Before market other

/-- In ascending order the first market without a lock is the least one. -/
theorem lockOrder_of_missing (hsome : ∃ market ∈ request, t.contains market = false) :
    ∃ market, t.LeastMissing request market ∧
      t.lockOrder request = .error (.marketNotListed market) := by
  obtain ⟨missing, hmissing, hcontains⟩ := hsome
  have hfound : ((sortDistinct request).find? fun market => !t.contains market).isSome := by
    rw [List.find?_isSome]
    exact ⟨missing, mem_sortDistinct.mpr hmissing, by rw [hcontains]; rfl⟩
  obtain ⟨market, hmarket⟩ := Option.isSome_iff_exists.mp hfound
  obtain ⟨hnot, before, later, horder, hbefore⟩ := List.find?_eq_some_iff_append.mp hmarket
  have hnot : t.contains market = false := by simpa using hnot
  have hbefore : ∀ other ∈ before, t.contains other = true := by simpa using hbefore
  have hascending := pairwise_sortDistinct request
  rw [horder, List.pairwise_append, List.pairwise_cons] at hascending
  obtain ⟨-, ⟨hlater, -⟩, -⟩ := hascending
  refine ⟨market, ⟨?_, hnot, ?_⟩, ?_⟩
  · rw [← mem_sortDistinct, horder]
    exact List.mem_append_right before List.mem_cons_self
  · intro other hother hmissing
    rw [← mem_sortDistinct, horder, List.mem_append, List.mem_cons] at hother
    rcases hother with hother | rfl | hother
    · rw [hbefore other hother] at hmissing
      cases hmissing
    · exact .inl rfl
    · exact .inr (hlater other hother)
  · rw [lockOrder, horder]
    exact mapM_check_eq_error hbefore hnot

/-- A request that is not refused is given all its locks. -/
theorem acquire_eq_ok : t.acquire mode request = .ok locks ↔
    (∀ market ∈ request, t.contains market = true) ∧
      locks = (sortDistinct request).map (·, mode) := by
  rw [acquire, bind_eq_ok]
  constructor
  · rintro ⟨order, horder, hlocks⟩
    have hall : ∀ market ∈ request, t.contains market = true := by
      intro market hmarket
      by_contra hcontains
      obtain ⟨least, -, herror⟩ :=
        lockOrder_of_missing ⟨market, hmarket, Bool.eq_false_iff.mpr hcontains⟩
      cases horder.symm.trans herror
    rw [lockOrder_of_contains hall] at horder
    cases horder
    exact ⟨hall, (pure_eq_ok.mp hlocks).symm⟩
  · rintro ⟨hall, rfl⟩
    exact ⟨_, lockOrder_of_contains hall, rfl⟩

theorem acquire_congr (hmem : ∀ market, market ∈ request ↔ market ∈ request') :
    t.acquire mode request = t.acquire mode request' := by
  rw [acquire, acquire, lockOrder, lockOrder, Name.sortDistinct_congr hmem]

theorem map_fst_of_acquire (hlocks : t.acquire mode request = .ok locks) :
    locks.map Prod.fst = sortDistinct request := by
  obtain ⟨-, rfl⟩ := acquire_eq_ok.mp hlocks
  rw [List.map_map]
  exact List.map_id _

/-- The markets that two requests share, in the order of either. -/
theorem filter_shared_eq (hlocks : t.acquire mode request = .ok locks)
    (hlocks' : t.acquire mode' request' = .ok locks') :
    (locks.map Prod.fst).filter (· ∈ request') = (locks'.map Prod.fst).filter (· ∈ request) := by
  rw [map_fst_of_acquire hlocks, map_fst_of_acquire hlocks']
  apply Name.eq_of_mem_iff ((pairwise_sortDistinct request).filter _)
    ((pairwise_sortDistinct request').filter _)
  intro market
  simp only [List.mem_filter, mem_sortDistinct, decide_eq_true_eq, and_comm]

end LockTable

end MoneyMarket
