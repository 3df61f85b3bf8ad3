import Mathlib.Data.Fintype.EquivFin
import Mathlib.Logic.Relation
import MoneyMarket.Proofs.Locks.Order

/-! # Requests that wait for locks

Any number of requests take their locks on one table side by side, in any
interleaving of their steps. The table does not change while requests are under
way. A request takes its locks in the order of its answer, one at a time, and
waits while the next one is not free. Whatever it holds stands before what it
waits for, so along a chain of requests that wait for each other the markets
that they wait for ascend. Such a chain cannot close, and it ends at a request
that waits for nobody.
-/

namespace MoneyMarket

open Name Relation

theorem forall_mem_modify {α : Type} {P : α → Prop} {l : List α} {f : α → α} {i : Nat}
    (hl : ∀ a ∈ l, P a) (hf : ∀ a, P a → P (f a)) : ∀ a ∈ l.modify i f, P a := by
  intro a ha
  obtain ⟨j, hj⟩ := List.mem_iff_getElem?.mp ha
  rw [List.getElem?_modify] at hj
  obtain ⟨b, hb, rfl⟩ := Option.map_eq_some_iff.mp hj
  have hb := hl b (List.mem_of_getElem? hb)
  split
  · exact hf b hb
  · exact hb

/-- A request under way: the locks that it has taken so far, in the order in
which it took them, the markets that it has given back, and the locks that it
still has to take. -/
structure LockRequest where
  mode : LockMode
  markets : List MarketId
  taken : List (MarketId × LockMode)
  returned : List MarketId
  ahead : List (MarketId × LockMode)
  deriving DecidableEq

namespace LockRequest

variable {requests : List LockRequest} {r s : LockRequest} {market market' : MarketId}
  {i j : Nat}

def held (r : LockRequest) : List (MarketId × LockMode) :=
  r.taken.filter fun lock => lock.1 ∉ r.returned

/-- A lock is free if nobody holds it. A shared lock is also free if all who
hold it share it. -/
def Free (requests : List LockRequest) (lock : MarketId × LockMode) : Prop :=
  ∀ r ∈ requests, ∀ other ∈ r.held, other.1 = lock.1 → other.2 = .shared ∧ lock.2 = .shared

instance (requests : List LockRequest) (lock : MarketId × LockMode) :
    Decidable (Free requests lock) :=
  inferInstanceAs (Decidable (∀ r ∈ requests, ∀ other ∈ r.held, _ → _ ∧ _))

/-- The request with its next lock, if that one is free. -/
def takeNext (requests : List LockRequest) (r : LockRequest) : LockRequest :=
  match r.ahead with
  | [] => r
  | lock :: rest =>
    if Free requests lock then { r with taken := r.taken ++ [lock], ahead := rest } else r

/-- The request without a lock. Locks are given back once all have been taken. -/
def giveBack (market : MarketId) (r : LockRequest) : LockRequest :=
  if r.ahead = [] then { r with returned := market :: r.returned } else r

/-- The request has a lock of the market. -/
def Holds (r : LockRequest) (market : MarketId) : Prop := market ∈ r.held.map Prod.fst

/-- The next lock of the request is one of the market. -/
def Awaits (r : LockRequest) (market : MarketId) : Prop :=
  (r.ahead.map Prod.fst).head? = some market

/-- Request `i` waits for a lock while request `j` has a lock of the same
market. The modes do not matter, since a shared lock may also have to wait for
an exclusive one that is waiting in front of it. -/
def WaitsFor (requests : List LockRequest) (i j : Nat) : Prop :=
  ∃ r s market, requests[i]? = some r ∧ requests[j]? = some s ∧ r.Awaits market ∧ s.Holds market

/-- The locks that a request takes ascend, also those that it has not taken yet. -/
def Ascends (r : LockRequest) : Prop := ((r.taken ++ r.ahead).map Prod.fst).Pairwise Before

theorem takeNext_request (requests : List LockRequest) (r : LockRequest) :
    (takeNext requests r).mode = r.mode ∧ (takeNext requests r).markets = r.markets ∧
      (takeNext requests r).taken ++ (takeNext requests r).ahead = r.taken ++ r.ahead := by
  rw [takeNext]
  split
  next => exact ⟨rfl, rfl, rfl⟩
  next lock rest hahead =>
    split
    · exact ⟨rfl, rfl, by simp [hahead]⟩
    · exact ⟨rfl, rfl, rfl⟩

theorem giveBack_request (market : MarketId) (r : LockRequest) :
    (r.giveBack market).mode = r.mode ∧ (r.giveBack market).markets = r.markets ∧
      (r.giveBack market).taken ++ (r.giveBack market).ahead = r.taken ++ r.ahead := by
  rw [giveBack]
  split <;> exact ⟨rfl, rfl, rfl⟩

/-- A request waits only for locks behind all that it has. -/
theorem Ascends.before (hr : r.Ascends) (hheld : r.Holds market) (hawaits : r.Awaits market') :
    Before market market' := by
  rw [Ascends, List.map_append, List.pairwise_append] at hr
  refine hr.2.2 market ?_ market' (List.mem_of_head? hawaits)
  obtain ⟨lock, hlock, rfl⟩ := List.mem_map.mp hheld
  exact List.mem_map_of_mem (List.mem_of_mem_filter hlock)

theorem WaitsFor.lt (hwaits : WaitsFor requests i j) : j < requests.length := by
  obtain ⟨-, s, -, -, hs, -⟩ := hwaits
  exact (List.getElem?_eq_some_iff.mp hs).1

/-- Along a chain of requests that wait for each other the awaited markets ascend. -/
theorem before_of_transGen_waitsFor (hascends : ∀ r ∈ requests, r.Ascends)
    (hchain : TransGen (WaitsFor requests) i j) (hi : requests[i]? = some r)
    (hr : r.Awaits market) (hj : requests[j]? = some s) (hs : s.Awaits market') :
    Before market market' := by
  induction hchain generalizing s market' with
  | single hwaits =>
      obtain ⟨r', s', held, hi', hj', hr', hs'⟩ := hwaits
      cases hi.symm.trans hi'
      cases hj.symm.trans hj'
      cases hr.symm.trans hr'
      exact (hascends s (List.mem_of_getElem? hj)).before hs' hs
  | tail _ hwaits ih =>
      obtain ⟨q, s', held, hk, hj', hq, hs'⟩ := hwaits
      cases hj.symm.trans hj'
      exact (ih hk hq).trans ((hascends s (List.mem_of_getElem? hj)).before hs' hs)

theorem not_transGen_waitsFor (hascends : ∀ r ∈ requests, r.Ascends) (i : Nat) :
    ¬TransGen (WaitsFor requests) i i := by
  intro hcycle
  obtain ⟨j, ⟨r, s, market, hi, -, hr, -⟩, -⟩ := TransGen.head'_iff.mp hcycle
  exact Before.irrefl market (before_of_transGen_waitsFor hascends hcycle hi hr hi hr)

/-- There are only so many requests, so every chain of waiting requests ends. -/
theorem wellFounded_waitsFor (hascends : ∀ r ∈ requests, r.Ascends) :
    WellFounded fun a b : Fin requests.length => TransGen (WaitsFor requests) b a := by
  have : IsTrans (Fin requests.length) fun a b => TransGen (WaitsFor requests) b a :=
    ⟨fun _ _ _ hba hcb => hcb.trans hba⟩
  have : Std.Irrefl fun a b : Fin requests.length => TransGen (WaitsFor requests) b a :=
    ⟨fun a => not_transGen_waitsFor hascends a⟩
  exact Finite.wellFounded_of_trans_of_irrefl _

theorem exists_not_waitsFor (hascends : ∀ r ∈ requests, r.Ascends) (a : Fin requests.length) :
    ∃ b : Fin requests.length, ReflTransGen (WaitsFor requests) a b ∧
      ∀ k, ¬WaitsFor requests b k := by
  induction a using (wellFounded_waitsFor hascends).induction with
  | _ a ih =>
      by_cases hwaits : ∃ k, WaitsFor requests a k
      · obtain ⟨k, hk⟩ := hwaits
        obtain ⟨b, hchain, hend⟩ := ih ⟨k, hk.lt⟩ (.single hk)
        exact ⟨b, hchain.head hk, hend⟩
      · exact ⟨a, .refl, not_exists.mp hwaits⟩

/-- A lock that nobody has is free for the request that comes to it. -/
theorem takeNext_of_not_waitsFor {lock : MarketId × LockMode}
    {rest : List (MarketId × LockMode)} (hi : requests[i]? = some r)
    (hnobody : ∀ j, ¬WaitsFor requests i j) (hahead : r.ahead = lock :: rest) :
    takeNext requests r = { r with taken := r.taken ++ [lock], ahead := rest } := by
  have hfree : Free requests lock := by
    intro s hs other hother hmarket
    obtain ⟨j, hj⟩ := List.mem_iff_getElem?.mp hs
    have hawaits : r.Awaits lock.1 := by rw [Awaits, hahead]; rfl
    have hholds : s.Holds lock.1 := List.mem_map.mpr ⟨other, hother, hmarket⟩
    exact absurd ⟨r, s, lock.1, hi, hj, hawaits, hholds⟩ (hnobody j)
  rw [takeNext, hahead]
  exact if_pos hfree

end LockRequest

/-- A step on a table: a new request is made, a request takes its next lock, or
it gives a lock back. -/
inductive LockStep where
  | ask (mode : LockMode) (markets : List MarketId)
  | take (i : Nat)
  | giveBack (i : Nat) (market : MarketId)

namespace LockTable

open LockRequest

/-- A request that has just been answered. One that is refused has nothing to take. -/
def ask (t : LockTable) (mode : LockMode) (markets : List MarketId) : LockRequest where
  mode := mode
  markets := markets
  taken := []
  returned := []
  ahead := (t.acquire mode markets).toOption.getD []

/-- The requests after a step. A request whose next lock is not free goes on
waiting. Who of those that wait for a free lock takes it is left to the steps. -/
def after (t : LockTable) (requests : List LockRequest) : LockStep → List LockRequest
  | .ask mode markets => requests ++ [t.ask mode markets]
  | .take i => requests.modify i (takeNext requests)
  | .giveBack i market => requests.modify i (giveBack market)

/-- The requests after a run of steps, whoever makes them. -/
def run (t : LockTable) (steps : List LockStep) : List LockRequest := steps.foldl t.after []

/-- A request that takes the locks of its answer in their order. -/
def Follows (t : LockTable) (r : LockRequest) : Prop :=
  r.taken ++ r.ahead = (t.acquire r.mode r.markets).toOption.getD []

variable {t : LockTable} {requests : List LockRequest} {r : LockRequest}

theorem Follows.takeNext (hr : t.Follows r) : t.Follows (takeNext requests r) := by
  obtain ⟨hmode, hmarkets, hlocks⟩ := takeNext_request requests r
  rw [Follows, hmode, hmarkets, hlocks, hr]

theorem Follows.giveBack {market : MarketId} (hr : t.Follows r) :
    t.Follows (r.giveBack market) := by
  obtain ⟨hmode, hmarkets, hlocks⟩ := giveBack_request market r
  rw [Follows, hmode, hmarkets, hlocks, hr]

theorem Follows.locks (hr : t.Follows r) :
    (∀ locks, t.acquire r.mode r.markets = .ok locks → r.taken ++ r.ahead = locks) ∧
      ∀ e, t.acquire r.mode r.markets = .error e → r.taken = [] ∧ r.ahead = [] := by
  constructor
  · intro locks hok
    rw [hr, hok]
    rfl
  · intro e herror
    rw [Follows, herror] at hr
    exact List.append_eq_nil_iff.mp hr

theorem Follows.ascends (hr : t.Follows r) : r.Ascends := by
  rw [Ascends, hr]
  cases hanswer : t.acquire r.mode r.markets with
  | ok locks => exact map_fst_of_acquire hanswer ▸ pairwise_sortDistinct r.markets
  | error e => exact List.Pairwise.nil

theorem follows_after (hrequests : ∀ r ∈ requests, t.Follows r) (step : LockStep) :
    ∀ r ∈ t.after requests step, t.Follows r := by
  cases step with
  | ask mode markets =>
      intro r hr
      rcases List.mem_append.mp hr with hr | hr
      · exact hrequests r hr
      · cases List.mem_singleton.mp hr
        rfl
  | take i => exact forall_mem_modify hrequests fun r hr => hr.takeNext
  | giveBack i market => exact forall_mem_modify hrequests fun r hr => hr.giveBack

theorem follows_foldl (hrequests : ∀ r ∈ requests, t.Follows r) (steps : List LockStep) :
    ∀ r ∈ steps.foldl t.after requests, t.Follows r := by
  induction steps generalizing requests with
  | nil => exact hrequests
  | cons step rest ih => exact ih (follows_after hrequests step)

/-- A request for markets that all have locks is given one lock for each of
them, in ascending order, and any other request is refused for the least of its
markets without a lock. The answer depends only on the set of the markets, and
two requests are given the locks of the markets that they share in the same
order. In every run of any number of requests each one takes the locks that it
was given, in their order, and a refused one takes none. Requests never wait
for each other in a cycle. Whoever waits does so in the end for a request that
waits for nobody, and such a request takes its next lock as soon as it goes on. -/
theorem locked_in_global_order (t : LockTable) :
    (∀ mode request, (∀ market ∈ request, t.contains market = true) →
      ∃ order : List MarketId, order.Pairwise Before ∧
        (∀ market, market ∈ order ↔ market ∈ request) ∧
        t.acquire mode request = .ok (order.map (·, mode))) ∧
    (∀ mode request, (∃ market ∈ request, t.contains market = false) →
      ∃ market, t.LeastMissing request market ∧
        t.acquire mode request = .error (.marketNotListed market)) ∧
    (∀ mode request request', (∀ market, market ∈ request ↔ market ∈ request') →
      t.acquire mode request = t.acquire mode request') ∧
    (∀ mode mode' request request' locks locks',
      t.acquire mode request = .ok locks → t.acquire mode' request' = .ok locks' →
        (locks.map Prod.fst).filter (· ∈ request') =
          (locks'.map Prod.fst).filter (· ∈ request)) ∧
    ∀ steps,
      (∀ r ∈ t.run steps,
        (∀ locks, t.acquire r.mode r.markets = .ok locks → r.taken ++ r.ahead = locks) ∧
        ∀ e, t.acquire r.mode r.markets = .error e → r.taken = [] ∧ r.ahead = []) ∧
      (∀ i, ¬TransGen (WaitsFor (t.run steps)) i i) ∧
      ∀ i r, (t.run steps)[i]? = some r →
        ∃ j s, ReflTransGen (WaitsFor (t.run steps)) i j ∧ (t.run steps)[j]? = some s ∧
          (∀ k, ¬WaitsFor (t.run steps) j k) ∧
          ∀ lock rest, s.ahead = lock :: rest →
            (t.after (t.run steps) (.take j))[j]? =
              some { s with taken := s.taken ++ [lock], ahead := rest } := by
  refine ⟨?_, ?_, fun _ _ _ => acquire_congr, fun _ _ _ _ _ _ => filter_shared_eq, ?_⟩
  · intro mode request hall
    exact ⟨sortDistinct request, pairwise_sortDistinct request, fun _ => mem_sortDistinct,
      acquire_eq_ok.mpr ⟨hall, rfl⟩⟩
  · intro mode request hsome
    obtain ⟨market, hmarket, herror⟩ := lockOrder_of_missing hsome
    exact ⟨market, hmarket, by rw [acquire, herror]; rfl⟩
  · intro steps
    have hfollows : ∀ r ∈ t.run steps, t.Follows r :=
      follows_foldl (List.forall_mem_nil _) steps
    have hascends : ∀ r ∈ t.run steps, r.Ascends := fun r hr => (hfollows r hr).ascends
    refine ⟨fun r hr => (hfollows r hr).locks, not_transGen_waitsFor hascends, ?_⟩
    intro i r hi
    obtain ⟨j, hchain, hnobody⟩ :=
      exists_not_waitsFor hascends ⟨i, (List.getElem?_eq_some_iff.mp hi).1⟩
    have hj := List.getElem?_eq_getElem j.isLt
    refine ⟨j, _, hchain, hj, hnobody, ?_⟩
    intro lock rest hahead
    rw [after, List.getElem?_modify_eq, hj, ← takeNext_of_not_waitsFor hj hnobody hahead]
    rfl

/-! ## A sample -/

def sample : LockTable := ((empty.register ⟨"jWETH"⟩).register ⟨"jAVAX"⟩).register ⟨"jUSDC"⟩

/-- A request that names a market twice, and not in their order. -/
def sampleRequest : List MarketId := [⟨"jWETH"⟩, ⟨"jAVAX"⟩, ⟨"jWETH"⟩]

/-- A request that names two markets without a lock, the least one last. -/
def sampleRefused : List MarketId := [⟨"jXYZ"⟩, ⟨"jAVAX"⟩, ⟨"jBTC"⟩]

/-- When the first request has taken its first lock, a second one comes for the
same two locks in the opposite order, and a third one is refused. -/
def sampleSteps : List LockStep :=
  [.ask .exclusive sampleRequest, .take 0, .ask .shared sampleRequest.tail, .take 1,
    .ask .exclusive sampleRefused, .take 2]

theorem sample_run : sample.run sampleSteps =
    [⟨.exclusive, sampleRequest, [(⟨"jAVAX"⟩, .exclusive)], [], [(⟨"jWETH"⟩, .exclusive)]⟩,
      ⟨.shared, sampleRequest.tail, [], [], [(⟨"jAVAX"⟩, .shared), (⟨"jWETH"⟩, .shared)]⟩,
      ⟨.exclusive, sampleRefused, [], [], []⟩] := by
  decide +kernel

theorem sample_waitsFor : WaitsFor (sample.run sampleSteps) 1 0 := by
  rw [sample_run]
  exact ⟨_, _, ⟨"jAVAX"⟩, rfl, rfl, rfl, List.mem_singleton_self _⟩

theorem sample_locked_in_global_order :
    (∃ order : List MarketId, order.Pairwise Before ∧
      (∀ market, market ∈ order ↔ market ∈ sampleRequest) ∧
      sample.acquire .exclusive sampleRequest = .ok (order.map (·, .exclusive))) ∧
    (∃ market, sample.LeastMissing sampleRefused market ∧
      sample.acquire .exclusive sampleRefused = .error (.marketNotListed market)) ∧
    sample.acquire .shared sampleRequest = sample.acquire .shared sampleRequest.tail ∧
    WaitsFor (sample.run sampleSteps) 1 0 ∧
    ¬TransGen (WaitsFor (sample.run sampleSteps)) 1 1 ∧
    ∃ j s, ReflTransGen (WaitsFor (sample.run sampleSteps)) 1 j ∧
      (sample.run sampleSteps)[j]? = some s ∧ ∀ k, ¬WaitsFor (sample.run sampleSteps) j k := by
  obtain ⟨hlocked, hrefused, hset, -, hruns⟩ := locked_in_global_order sample
  obtain ⟨-, hcycle, hchain⟩ := hruns sampleSteps
  obtain ⟨r, -, -, hr, -⟩ := sample_waitsFor
  obtain ⟨j, s, hwaits, hj, hnobody, -⟩ := hchain 1 r hr
  refine ⟨hlocked _ _ (by decide +kernel), hrefused _ _ (by decide +kernel), ?_, sample_waitsFor,
    hcycle 1, j, s, hwaits, hj, hnobody⟩
  exact hset _ _ _ fun market => by grind [sampleRequest]

end LockTable

end MoneyMarket
