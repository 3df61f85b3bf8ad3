import MoneyMarket.Controller.Dealings
import MoneyMarket.Proofs.Entries
import MoneyMarket.Proofs.Success

/-! # Running operations

Running an operation on a controller gives a result and the controller after
it, which a failure may have changed too. A success of a compound operation is
taken apart into successes of its steps; a failure happens in one of them. An
operation is atomic if it changes nothing where it fails, and reads if it never
changes anything.
-/

namespace MoneyMarket

variable {α β : Type} {c c' : Controller} {a : α} {b : β} {e : ControllerError}

/-- The result of an operation on a controller, and the controller after it. -/
def Operation.runOn (op : Operation α) (c : Controller) : Except ControllerError α × Controller :=
  op.run.run c

namespace Operation

/-! ## Steps -/

@[simp]
theorem runOn_pure (a : α) (c : Controller) : (pure a : Operation α).runOn c = (.ok a, c) := rfl

@[simp]
theorem runOn_throw (e : ControllerError) (c : Controller) :
    (throw e : Operation α).runOn c = (.error e, c) := rfl

@[simp]
theorem runOn_set (c c' : Controller) : (set c' : Operation PUnit).runOn c = (.ok ⟨⟩, c') := rfl

@[simp]
theorem runOn_liftM (x : Except ControllerError α) (c : Controller) :
    (liftM x : Operation α).runOn c = (x, c) := by
  cases x <;> rfl

@[simp]
theorem runOn_liftM_arithmetic (x : Except ArithmeticError α) (c : Controller) :
    (liftM x : Operation α).runOn c = (x.mapError .arithmetic, c) := by
  cases x <;> rfl

theorem runOn_bind (x : Operation α) (f : α → Operation β) (c : Controller) :
    (x >>= f).runOn c =
      match x.runOn c with
      | (.ok a, c') => (f a).runOn c'
      | (.error e, c') => (.error e, c') := by
  unfold runOn ExceptT.run StateT.run
  simp only [bind, ExceptT.bind, ExceptT.mk, StateT.bind, ExceptT.bindCont]
  cases x c with
  | mk result c' => cases result <;> rfl

/-- What follows a success goes on where it left. -/
theorem runOn_bind_of_ok {x : Operation α} (hx : x.runOn c = (.ok a, c'))
    (f : α → Operation β) : (x >>= f).runOn c = (f a).runOn c' := by
  rw [runOn_bind, hx]

theorem runOn_liftM_bind_of_ok {x : Except ControllerError α} (hx : x = .ok a)
    (f : α → Operation β) : (liftM x >>= f).runOn c = (f a).runOn c :=
  runOn_bind_of_ok (by rw [runOn_liftM, hx]) f

theorem runOn_bind_eq_ok {x : Operation α} {f : α → Operation β} :
    (x >>= f).runOn c = (.ok b, c') ↔
      ∃ a c₁, x.runOn c = (.ok a, c₁) ∧ (f a).runOn c₁ = (.ok b, c') := by
  rw [runOn_bind]
  cases x.runOn c with
  | mk result c₁ => cases result <;> simp [and_assoc]

theorem runOn_bind_eq_error {x : Operation α} {f : α → Operation β} :
    (x >>= f).runOn c = (.error e, c') ↔
      x.runOn c = (.error e, c') ∨
        ∃ a c₁, x.runOn c = (.ok a, c₁) ∧ (f a).runOn c₁ = (.error e, c') := by
  rw [runOn_bind]
  cases x.runOn c with
  | mk result c₁ => cases result <;> simp [and_assoc]

@[simp]
theorem runOn_get_bind (f : Controller → Operation β) (c : Controller) :
    (get >>= f).runOn c = (f c).runOn c := by
  rw [runOn_bind]
  rfl

@[simp]
theorem runOn_set_bind (c c' : Controller) (f : PUnit → Operation β) :
    (set c' >>= f).runOn c = (f ⟨⟩).runOn c' := by
  rw [runOn_bind]
  rfl

@[simp]
theorem runOn_modify_bind (g : Controller → Controller) (f : PUnit → Operation β)
    (c : Controller) : (modify g >>= f).runOn c = (f ⟨⟩).runOn (g c) := by
  rw [runOn_bind]
  rfl

theorem runOn_liftM_bind_eq_ok {x : Except ControllerError α} {f : α → Operation β} :
    (liftM x >>= f).runOn c = (.ok b, c') ↔ ∃ a, x = .ok a ∧ (f a).runOn c = (.ok b, c') := by
  rw [runOn_bind, runOn_liftM]
  cases x <;> simp

theorem runOn_pure_eq_ok {a' : α} :
    (pure a : Operation α).runOn c = (.ok a', c') ↔ a = a' ∧ c' = c := by
  rw [runOn_pure, Prod.mk.injEq, Except.ok.injEq, eq_comm (a := c)]

/-- A guard in front of an operation has to let it pass. -/
theorem runOn_guard_eq_ok {p : Prop} [Decidable p] {k : PUnit → Operation β}
    {op : Operation β} :
    (if p then throw e >>= k else op).runOn c = (.ok b, c') ↔
      ¬p ∧ op.runOn c = (.ok b, c') := by
  split
  next hp => simp [hp]
  next hp => simp [hp]

theorem runOn_map_eq_ok {f : α → β} {x : Operation α} :
    (f <$> x).runOn c = (.ok b, c') ↔ ∃ a, x.runOn c = (.ok a, c') ∧ f a = b := by
  rw [map_eq_pure_bind, runOn_bind_eq_ok]
  constructor
  · rintro ⟨a, c₁, hx, hpure⟩
    obtain ⟨hb, rfl⟩ := runOn_pure_eq_ok.mp hpure
    exact ⟨a, hx, hb⟩
  · rintro ⟨a, hx, rfl⟩
    exact ⟨a, c', hx, rfl⟩

/-! ## Operations that read and atomic operations -/

/-- An operation that never changes anything. -/
def Reads (op : Operation α) : Prop := ∀ c, (op.runOn c).2 = c

/-- An operation that changes nothing where it fails. -/
def Atomic (op : Operation α) : Prop := ∀ c e c', op.runOn c = (.error e, c') → c' = c

theorem Reads.eq {op : Operation α} (hop : op.Reads) {result : Except ControllerError α}
    (hrun : op.runOn c = (result, c')) : c' = c := by
  have hc := hop c
  rw [hrun] at hc
  exact hc

theorem Reads.atomic {op : Operation α} (hop : op.Reads) : op.Atomic := by
  intro c e c' hrun
  exact hop.eq hrun

theorem reads_pure (a : α) : (pure a : Operation α).Reads := by
  intro c
  rfl

theorem reads_throw (e : ControllerError) : (throw e : Operation α).Reads := by
  intro c
  rfl

theorem reads_get : (get : Operation Controller).Reads := by
  intro c
  rfl

theorem reads_liftM (x : Except ControllerError α) : (liftM x : Operation α).Reads := by
  intro c
  rw [runOn_liftM]

theorem reads_liftM_arithmetic (x : Except ArithmeticError α) :
    (liftM x : Operation α).Reads := by
  intro c
  rw [runOn_liftM_arithmetic]

theorem Reads.bind {x : Operation α} {f : α → Operation β} (hx : x.Reads)
    (hf : ∀ a, (f a).Reads) : (x >>= f).Reads := by
  intro c
  rw [runOn_bind]
  have hc := hx c
  cases hrun : x.runOn c with
  | mk result c₁ =>
      rw [hrun] at hc
      cases hc
      cases result with
      | ok a => exact hf a c₁
      | error e => rfl

/-- What follows reading only has to agree where nothing has changed. -/
theorem Reads.runOn_bind_congr {x : Operation α} {f g : α → Operation β} (hx : x.Reads)
    (hrest : ∀ a, (f a).runOn c = (g a).runOn c) :
    (x >>= f).runOn c = (x >>= g).runOn c := by
  rw [runOn_bind, runOn_bind]
  cases hrun : x.runOn c with
  | mk result c₁ =>
      cases hx.eq hrun
      cases result with
      | ok a => exact hrest a
      | error e => rfl

theorem Reads.map {x : Operation α} {f : α → β} (hx : x.Reads) : (f <$> x).Reads := by
  rw [map_eq_pure_bind]
  exact hx.bind fun _ => reads_pure _

/-- Reading before an atomic operation. -/
theorem Reads.bind_atomic {x : Operation α} {f : α → Operation β} (hx : x.Reads)
    (hf : ∀ a, (f a).Atomic) : (x >>= f).Atomic := by
  intro c e c' hrun
  rcases runOn_bind_eq_error.mp hrun with herror | ⟨a, c₁, hok, herror⟩
  · exact hx.eq herror
  · cases hx.eq hok
    exact hf a _ e c' herror

/-- What follows an atomic operation may change things if it cannot fail. -/
theorem Atomic.bind_of_ok {x : Operation α} {f : α → Operation β} (hx : x.Atomic)
    (hf : ∀ a c, ∃ b c', (f a).runOn c = (.ok b, c')) : (x >>= f).Atomic := by
  intro c e c' hrun
  rcases runOn_bind_eq_error.mp hrun with herror | ⟨a, c₁, -, herror⟩
  · exact hx c e c' herror
  · obtain ⟨b, c₂, hok⟩ := hf a c₁
    rw [hok] at herror
    cases herror

theorem Atomic.bind_pure {x : Operation α} (hx : x.Atomic) (f : α → β) :
    (x >>= fun a => pure (f a)).Atomic :=
  hx.bind_of_ok fun a c => ⟨f a, c, rfl⟩

/-- A guard in front of an atomic operation. -/
theorem atomic_guard {p : Prop} [Decidable p] (e : ControllerError) {k : PUnit → Operation β}
    {op : Operation β} (hop : op.Atomic) : (if p then throw e >>= k else op).Atomic := by
  split
  · intro c e' c' hrun
    rw [runOn_bind, runOn_throw] at hrun
    exact (Prod.mk.inj hrun).2.symm
  · exact hop

theorem atomic_set (c : Controller) : (set c : Operation PUnit).Atomic := by
  intro c₀ e c' hrun
  cases hrun

theorem atomic_modify (f : Controller → Controller) : (modify f : Operation PUnit).Atomic := by
  intro c e c' hrun
  cases hrun

end Operation

/-! ## Listed markets -/

namespace Controller

/-- The controller with another state of a market that it has a record of. -/
def setState (c : Controller) (market : MarketId) (listing : Listing) (state : Market) :
    Controller :=
  c.setListing market { listing with state }

/-- The controller with other memberships. -/
def setMemberships (c : Controller) (memberships : Memberships) : Controller :=
  { c with memberships }

theorem listed_eq_ok {market : MarketId} {listing : Listing} :
    c.listed market = .ok listing ↔ c.listed? market = some listing := by
  unfold listed
  cases c.listed? market <;> simp

theorem listed?_eq_some {market : MarketId} {listing : Listing} :
    c.listed? market = some listing ↔
      c.markets.get? market = some listing ∧ listing.policy.isListed = true := by
  unfold listed?
  rw [Option.filter_eq_some_iff]

theorem get?_setState (c : Controller) (market other : MarketId) (listing : Listing)
    (state : Market) :
    (c.setState market listing state).markets.get? other =
      if market = other then some { listing with state } else c.markets.get? other :=
  Registry.get?_insert ..

theorem setState_self {market : MarketId} {listing : Listing}
    (hlisted : c.listed? market = some listing) : c.setState market listing listing.state = c := by
  have hmarkets : c.markets.insert market listing = c.markets :=
    Registry.insert_eq_self (listed?_eq_some.mp hlisted).1
  unfold setState setListing
  rw [hmarkets]

theorem setState_setState (c : Controller) (market : MarketId) (listing : Listing)
    (state state' : Market) :
    (c.setState market listing state).setState market { listing with state } state' =
      c.setState market listing state' := by
  unfold setState setListing
  rw [Registry.insert_insert]

/-- A market stays listed with another state. -/
theorem listed?_setState {market other : MarketId} {listing : Listing} (state : Market)
    (hlisted : c.listed? market = some listing) :
    (c.setState market listing state).listed? other =
      if market = other then some { listing with state } else c.listed? other := by
  unfold listed?
  rw [get?_setState]
  split
  next heq => simp [(listed?_eq_some.mp hlisted).2]
  next => rfl

theorem listed?_setState_self {market : MarketId} {listing : Listing} (state : Market)
    (hlisted : c.listed? market = some listing) :
    (c.setState market listing state).listed? market = some { listing with state } := by
  rw [listed?_setState _ hlisted, if_pos rfl]

end Controller

theorem Verdict.demand_eq_ok {verdict : Verdict} {u : Unit} :
    verdict.demand = .ok u ↔ verdict = .allow := by
  cases verdict <;> simp [Verdict.demand]

/-! ## What operations keep -/

namespace Operation

/-- Whether it succeeds or fails, the operation keeps what holds of a
controller. -/
def Keeps (P : Controller → Prop) (op : Operation α) : Prop := ∀ c, P c → P (op.runOn c).2

variable {P : Controller → Prop}

theorem Reads.keeps {op : Operation α} (hop : op.Reads) : op.Keeps P := by
  intro c hc
  rw [hop c]
  exact hc

/-- An atomic operation only has to keep what holds where it succeeds. -/
theorem Atomic.keeps {op : Operation α} (hop : op.Atomic)
    (hok : ∀ c a c', P c → op.runOn c = (.ok a, c') → P c') : op.Keeps P := by
  intro c hc
  cases hrun : op.runOn c with
  | mk result c' =>
      cases result with
      | ok a => exact hok c a c' hc hrun
      | error e => exact hop c e c' hrun ▸ hc

theorem Keeps.bind {x : Operation α} {f : α → Operation β} (hx : x.Keeps P)
    (hf : ∀ a, (f a).Keeps P) : (x >>= f).Keeps P := by
  intro c hc
  have hc₁ := hx c hc
  rw [runOn_bind]
  cases hrun : x.runOn c with
  | mk result c₁ =>
      rw [hrun] at hc₁
      cases result with
      | ok a => exact hf a c₁ hc₁
      | error e => exact hc₁

theorem Keeps.bind_pure {x : Operation α} (hx : x.Keeps P) (f : α → β) :
    (x >>= fun a => pure (f a)).Keeps P :=
  hx.bind fun _ => (reads_pure _).keeps

/-- The controller that was read has what holds of it. -/
theorem Keeps.get_bind {f : Controller → Operation β} (hf : ∀ c, P c → (f c).Keeps P) :
    (get >>= f).Keeps P := by
  intro c hc
  rw [runOn_get_bind]
  exact hf c hc c hc

theorem Keeps.mapM {f : α → Operation β} (hf : ∀ a, (f a).Keeps P) (l : List α) :
    (l.mapM f).Keeps P := by
  induction l with
  | nil => exact (reads_pure []).keeps
  | cons a rest ih =>
      rw [List.mapM_cons]
      exact (hf a).bind fun b => ih.bind fun bs => (reads_pure (b :: bs)).keeps

/-! ## Lists of operations -/

/-- A list of operations fails at one of them, on what those before it have
left. -/
theorem runOn_mapM_eq_error {f : α → Operation β} {l : List α} :
    (l.mapM f).runOn c = (.error e, c') ↔ ∃ before a after bs c₁, l = before ++ a :: after ∧
      (before.mapM f).runOn c = (.ok bs, c₁) ∧ (f a).runOn c₁ = (.error e, c') := by
  induction l generalizing c with
  | nil => simp
  | cons first rest ih =>
      simp only [List.mapM_cons, runOn_bind_eq_error, ih, runOn_pure]
      constructor
      · rintro (hfirst |
          ⟨b, c₁, hfirst, ⟨before, a, after, bs, c₂, rfl, hbefore, ha⟩ | ⟨_, _, _, h⟩⟩)
        · exact ⟨[], first, rest, [], c, rfl, rfl, hfirst⟩
        · refine ⟨first :: before, a, after, b :: bs, c₂, rfl, ?_, ha⟩
          rw [List.mapM_cons, runOn_bind_of_ok hfirst, runOn_bind_of_ok hbefore, runOn_pure]
        · cases h
      · rintro ⟨before, a, after, bs, c₂, hl, hbefore, ha⟩
        cases before with
        | nil =>
            obtain ⟨rfl, rfl⟩ := List.cons.inj hl
            cases hbefore
            exact .inl ha
        | cons b before =>
            obtain ⟨rfl, rfl⟩ := List.cons.inj hl
            rw [List.mapM_cons] at hbefore
            obtain ⟨b, c₁, hfirst, hrest⟩ := runOn_bind_eq_ok.mp hbefore
            obtain ⟨bs, c₃, hrest, hpure⟩ := runOn_bind_eq_ok.mp hrest
            cases hpure
            exact .inr ⟨b, c₁, hfirst, .inl ⟨before, a, after, bs, c₂, rfl, hrest, ha⟩⟩

/-! ## Operations that succeed -/

/-- Wherever something holds, the operation succeeds and keeps it. -/
def Succeeds (P : Controller → Prop) (op : Operation α) : Prop :=
  ∀ c, P c → ∃ a c', op.runOn c = (.ok a, c') ∧ P c'

theorem Succeeds.bind {x : Operation α} {f : α → Operation β} (hx : x.Succeeds P)
    (hf : ∀ a, (f a).Succeeds P) : (x >>= f).Succeeds P := by
  intro c hc
  obtain ⟨a, c₁, hrun, hc₁⟩ := hx c hc
  obtain ⟨b, c₂, hrest, hc₂⟩ := hf a c₁ hc₁
  exact ⟨b, c₂, runOn_bind_eq_ok.mpr ⟨a, c₁, hrun, hrest⟩, hc₂⟩

theorem succeeds_pure (a : α) : (pure a : Operation α).Succeeds P :=
  fun c hc => ⟨a, c, rfl, hc⟩

theorem Succeeds.mapM {f : α → Operation β} {l : List α} (hf : ∀ a ∈ l, (f a).Succeeds P) :
    (l.mapM f).Succeeds P := by
  induction l with
  | nil => exact succeeds_pure []
  | cons a rest ih =>
      rw [List.mapM_cons]
      have hrest := ih fun b hb => hf b (List.mem_cons_of_mem a hb)
      exact (hf a List.mem_cons_self).bind fun b => hrest.bind fun bs => succeeds_pure (b :: bs)

end Operation

/-! ## Plans, gates and changes of markets -/

namespace Operation

open Controller

variable {market : MarketId}

theorem reads_planOn (plan : Market → Except MarketError α) : (planOn market plan).Reads :=
  reads_get.bind fun _ => (reads_liftM _).bind fun _ => reads_liftM _

theorem runOn_planOn_bind_eq_ok {plan : Market → Except MarketError α} {f : α → Operation β} :
    (planOn market plan >>= f).runOn c = (.ok b, c') ↔
      ∃ listing a, c.listed? market = some listing ∧ plan listing.state = .ok a ∧
        (f a).runOn c = (.ok b, c') := by
  simp only [planOn, bind_assoc, runOn_get_bind, runOn_liftM_bind_eq_ok, within_eq_ok,
    listed_eq_ok, exists_and_left]

theorem runOn_planOn_eq_ok {plan : Market → Except MarketError α} :
    (planOn market plan).runOn c = (.ok a, c') ↔
      ∃ listing, c.listed? market = some listing ∧ plan listing.state = .ok a ∧ c' = c := by
  rw [← bind_pure (planOn market plan)]
  simp only [runOn_planOn_bind_eq_ok, runOn_pure_eq_ok]
  constructor
  · rintro ⟨listing, _, hlisted, hplan, rfl, hc⟩
    exact ⟨listing, hlisted, hplan, hc⟩
  · rintro ⟨listing, hlisted, hplan, hc⟩
    exact ⟨listing, a, hlisted, hplan, rfl, hc⟩

theorem reads_passGate (gate : Controller → Except ControllerError Verdict) :
    (passGate gate).Reads :=
  reads_get.bind fun _ => (reads_liftM _).bind fun _ => reads_liftM _

theorem runOn_passGate_bind_eq_ok {gate : Controller → Except ControllerError Verdict}
    {f : Unit → Operation β} :
    (passGate gate >>= f).runOn c = (.ok b, c') ↔
      gate c = .ok .allow ∧ (f ()).runOn c = (.ok b, c') := by
  simp only [passGate, bind_assoc, runOn_get_bind, runOn_liftM_bind_eq_ok, Verdict.demand_eq_ok]
  constructor
  · rintro ⟨verdict, hgate, _, rfl, hrun⟩
    exact ⟨hgate, hrun⟩
  · rintro ⟨hgate, hrun⟩
    exact ⟨.allow, hgate, (), rfl, hrun⟩

theorem runOn_onMarket_eq_ok {change : Market → Market × α} :
    (onMarket market change).runOn c = (.ok a, c') ↔
      ∃ listing, c.listed? market = some listing ∧ (change listing.state).2 = a ∧
        c' = c.setState market listing (change listing.state).1 := by
  simp only [onMarket, runOn_get_bind, runOn_liftM_bind_eq_ok, listed_eq_ok, runOn_set_bind,
    runOn_pure_eq_ok]
  rfl

theorem runOn_onMarket_of_listed {listing : Listing} {change : Market → Market × α}
    (hlisted : c.listed? market = some listing) :
    (onMarket market change).runOn c =
      (.ok (change listing.state).2, c.setState market listing (change listing.state).1) :=
  runOn_onMarket_eq_ok.mpr ⟨listing, hlisted, rfl, rfl⟩

theorem atomic_onMarket (change : Market → Market × α) : (onMarket market change).Atomic :=
  reads_get.bind_atomic fun _ => (reads_liftM _).bind_atomic fun _ =>
    (atomic_set _).bind_pure _

theorem runOn_tryOnMarket_eq_ok {change : Market → Except MarketError (Market × α)} :
    (tryOnMarket market change).runOn c = (.ok a, c') ↔
      ∃ listing state, c.listed? market = some listing ∧ change listing.state = .ok (state, a) ∧
        c' = c.setState market listing state := by
  simp only [tryOnMarket, runOn_get_bind, runOn_liftM_bind_eq_ok, listed_eq_ok, within_eq_ok,
    runOn_set_bind, runOn_pure_eq_ok]
  constructor
  · rintro ⟨listing, hlisted, ⟨state, result⟩, hchange, rfl, rfl⟩
    exact ⟨listing, state, hlisted, hchange, rfl⟩
  · rintro ⟨listing, state, hlisted, hchange, rfl⟩
    exact ⟨listing, hlisted, (state, a), hchange, rfl, rfl⟩

theorem runOn_tryOnMarket_of_listed {listing : Listing}
    {change : Market → Except MarketError (Market × α)}
    (hlisted : c.listed? market = some listing) :
    (tryOnMarket market change).runOn c =
      match change listing.state with
      | .ok (state, a) => (.ok a, c.setState market listing state)
      | .error cause => (.error (.ofMarket market cause), c) := by
  rw [tryOnMarket, runOn_get_bind, runOn_liftM_bind_of_ok (listed_eq_ok.mpr hlisted), runOn_bind,
    runOn_liftM]
  cases change listing.state <;> rfl

theorem atomic_tryOnMarket (change : Market → Except MarketError (Market × α)) :
    (tryOnMarket market change).Atomic :=
  reads_get.bind_atomic fun _ => (reads_liftM _).bind_atomic fun _ =>
    (reads_liftM _).bind_atomic fun _ => (atomic_set _).bind_pure _

theorem runOn_onPolicy_eq_ok {change : MarketPolicy → MarketPolicy} {u : Unit} :
    (onPolicy market change).runOn c = (.ok u, c') ↔
      ∃ listing, c.listed? market = some listing ∧
        c' = c.setListing market { listing with policy := change listing.policy } := by
  simp only [onPolicy, runOn_get_bind, runOn_liftM_bind_eq_ok, listed_eq_ok, runOn_set,
    Prod.mk.injEq, eq_comm (b := c'), true_and]

theorem atomic_onPolicy (change : MarketPolicy → MarketPolicy) :
    (onPolicy market change).Atomic :=
  reads_get.bind_atomic fun _ => (reads_liftM _).bind_atomic fun _ => atomic_set _

end Operation

end MoneyMarket
