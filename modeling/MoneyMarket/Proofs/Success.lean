import MoneyMarket.Controller.Error

/-! # Successful computations

A computation that may fail succeeds only if each of its steps does. The laws
here take a success apart into the successes of the steps, for every kind of
step that markets and gates are made of. A failure is the failure of a step, so
a computation avoids a certain error if all its steps avoid it.
-/

namespace MoneyMarket

variable {ε ε' α β : Type}

@[simp]
theorem bind_eq_ok {x : Except ε α} {f : α → Except ε β} {b : β} :
    x >>= f = .ok b ↔ ∃ a, x = .ok a ∧ f a = .ok b := by
  cases x <;> simp [bind, Except.bind]

/-- A computation fails at its first step or behind it. -/
theorem bind_eq_error {x : Except ε α} {f : α → Except ε β} {e : ε} :
    x >>= f = .error e ↔ x = .error e ∨ ∃ a, x = .ok a ∧ f a = .error e := by
  cases x <;> simp [bind, Except.bind]

/-- Behind the same step one failure leads to the other. -/
theorem bind_eq_error_imp {x : Except ε α} {f g : α → Except ε β} {e : ε}
    (himp : ∀ a, x = .ok a → f a = .error e → g a = .error e) (herror : x >>= f = .error e) :
    x >>= g = .error e := by
  rcases bind_eq_error.mp herror with hfirst | ⟨a, hok, hrest⟩
  · exact bind_eq_error.mpr (.inl hfirst)
  · exact bind_eq_error.mpr (.inr ⟨a, hok, himp a hok hrest⟩)

@[simp]
theorem map_eq_ok {x : Except ε α} {f : α → β} {b : β} :
    f <$> x = .ok b ↔ ∃ a, x = .ok a ∧ f a = b := by
  cases x <;> simp [Functor.map, Except.map]

@[simp]
theorem map_eq_error {x : Except ε α} {f : α → β} {e : ε} :
    f <$> x = .error e ↔ x = .error e := by
  cases x <;> simp [Functor.map, Except.map]

@[simp]
theorem pure_eq_ok {a b : α} : (pure a : Except ε α) = .ok b ↔ a = b := by
  simp [pure, Except.pure]

@[simp]
theorem pure_ne_error {a : α} {e : ε} : (pure a : Except ε α) ≠ .error e := by
  simp [pure, Except.pure]

@[simp]
theorem throw_ne_ok {e : ε} {a : α} : (throw e : Except ε α) ≠ .ok a := by
  simp [throw, throwThe, MonadExceptOf.throw]

@[simp]
theorem mapError_eq_ok {f : ε → ε'} {x : Except ε α} {a : α} :
    x.mapError f = .ok a ↔ x = .ok a := by
  cases x with
  | error e => exact ⟨nofun, nofun⟩
  | ok a' =>
      change Except.ok a' = Except.ok a ↔ _
      simp only [Except.ok.injEq]

theorem mapError_eq_error {f : ε → ε'} {x : Except ε α} {e' : ε'} :
    x.mapError f = .error e' ↔ ∃ e, x = .error e ∧ f e = e' := by
  cases x with
  | error e =>
      change Except.error (f e) = Except.error e' ↔ _
      simp
  | ok a => exact ⟨nofun, nofun⟩

/-- A guard in front of a computation has to let it pass. -/
@[simp]
theorem guard_eq_ok {p : Prop} [Decidable p] {e : ε} {k : PUnit → Except ε α} {x : Except ε α}
    {a : α} : (if p then throw e >>= k else x) = .ok a ↔ ¬p ∧ x = .ok a := by
  split <;> simp_all

/-- A guard in front of a computation stops it, or lets it fail. -/
theorem guard_eq_error {p : Prop} [Decidable p] {e e' : ε} {k : PUnit → Except ε α}
    {x : Except ε α} :
    (if p then throw e >>= k else x) = .error e' ↔ p ∧ e = e' ∨ ¬p ∧ x = .error e' := by
  split
  next hp => simp [hp, bind_eq_error, throw, throwThe, MonadExceptOf.throw]
  next hp => simp [hp]

/-- A fold fails where one of its steps does. -/
theorem foldlM_eq_error {f : β → α → Except ε β} {l : List α} {b : β} {e : ε}
    (herror : l.foldlM f b = .error e) : ∃ a ∈ l, ∃ b', f b' a = .error e := by
  induction l generalizing b with
  | nil => exact absurd herror pure_ne_error
  | cons a rest ih =>
      rw [List.foldlM_cons] at herror
      rcases bind_eq_error.mp herror with hfirst | ⟨b', -, hrest⟩
      · exact ⟨a, List.mem_cons_self, b, hfirst⟩
      · obtain ⟨a', ha', hstep⟩ := ih hrest
        exact ⟨a', List.mem_cons_of_mem a ha', hstep⟩

/-- Members that all pass a check pass it together. -/
theorem mapM_check_eq_ok {p : α → Bool} {refusal : α → ε} {l : List α}
    (hall : ∀ a ∈ l, p a = true) :
    l.mapM (fun a => if p a then Except.ok a else .error (refusal a)) = .ok l := by
  induction l with
  | nil => rfl
  | cons a rest ih =>
      rw [List.mapM_cons, if_pos (hall a List.mem_cons_self),
        ih fun b hb => hall b (List.mem_cons_of_mem a hb)]
      rfl

/-- The first member that does not pass ends the check. -/
theorem mapM_check_eq_error {p : α → Bool} {refusal : α → ε} {before later : List α} {a : α}
    (hbefore : ∀ b ∈ before, p b = true) (ha : p a = false) :
    (before ++ a :: later).mapM (fun b => if p b then Except.ok b else .error (refusal b)) =
      .error (refusal a) := by
  rw [List.mapM_append, mapM_check_eq_ok hbefore, List.mapM_cons, ha]
  rfl

/-! ## Steps of another kind -/

@[simp]
theorem liftM_market_eq_ok {x : Except ArithmeticError α} {a : α} :
    (liftM x : Except MarketError α) = .ok a ↔ x = .ok a := mapError_eq_ok

@[simp]
theorem liftM_controller_eq_ok {x : Except ArithmeticError α} {a : α} :
    (liftM x : Except ControllerError α) = .ok a ↔ x = .ok a := mapError_eq_ok

@[simp]
theorem within_eq_ok {market : MarketId} {x : Except MarketError α} {a : α} :
    ControllerError.within market x = .ok a ↔ x = .ok a := mapError_eq_ok

theorem liftM_market_eq_error {x : Except ArithmeticError α} {e : MarketError} :
    (liftM x : Except MarketError α) = .error e ↔
      ∃ cause, x = .error cause ∧ .arithmetic cause = e := mapError_eq_error

/-- Only arithmetic fails arithmetically. -/
@[simp]
theorem liftM_market_eq_arithmetic {x : Except ArithmeticError α} {e : ArithmeticError} :
    (liftM x : Except MarketError α) = .error (.arithmetic e) ↔ x = .error e :=
  mapError_eq_error.trans (by simp)

@[simp]
theorem liftM_controller_eq_arithmetic {x : Except ArithmeticError α} {e : ArithmeticError} :
    (liftM x : Except ControllerError α) = .error (.arithmetic e) ↔ x = .error e :=
  mapError_eq_error.trans (by simp)

/-! ## Errors that do not occur -/

/-- A computation that does not fail with a certain error. -/
def Avoids (e : ε) (x : Except ε α) : Prop := x ≠ .error e

theorem avoids_ok (e : ε) (a : α) : Avoids e (.ok a) := by
  rintro ⟨⟩

theorem avoids_pure (e : ε) (a : α) : Avoids e (pure a) := avoids_ok e a

theorem avoids_error {e e' : ε} (hne : e' ≠ e) : Avoids e (.error e' : Except ε α) := by
  rintro ⟨⟩
  exact hne rfl

/-- Steps that are not reached need not avoid anything. -/
theorem Avoids.bind {e : ε} {x : Except ε α} {f : α → Except ε β} (hx : Avoids e x)
    (hf : ∀ a, x = .ok a → Avoids e (f a)) : Avoids e (x >>= f) := by
  intro herror
  rcases bind_eq_error.mp herror with hfirst | ⟨a, hok, hrest⟩
  · exact hx hfirst
  · exact hf a hok hrest

/-- A guard that fails with another error. -/
theorem avoids_guard {e e' : ε} {p : Prop} [Decidable p] {k : PUnit → Except ε α}
    {x : Except ε α} (hne : e' ≠ e) (hx : ¬p → Avoids e x) :
    Avoids e (if p then throw e' >>= k else x) := by
  split
  next => exact avoids_error hne
  next hp => exact hx hp

theorem Avoids.liftM {e : ArithmeticError} {x : Except ArithmeticError α} (hx : Avoids e x) :
    Avoids (.arithmetic e) (liftM x : Except MarketError α) :=
  fun herror => hx (liftM_market_eq_arithmetic.mp herror)

/-! ## Computations side by side -/

section Refines

variable {α' β' : Type} {r : α → α' → Prop} {s : β → β' → Prop}

/-- Where the first computation succeeds, so does the second, with a related
result. -/
def Refines (r : α → α' → Prop) (x : Except ε α) (y : Except ε α') : Prop :=
  ∀ a, x = .ok a → ∃ a', y = .ok a' ∧ r a a'

theorem refines_pure {a : α} {a' : α'} (ha : r a a') :
    Refines r (pure a : Except ε α) (pure a') := by
  intro b hb
  cases hb
  exact ⟨a', rfl, ha⟩

theorem Refines.bind {x : Except ε α} {y : Except ε α'} {f : α → Except ε β}
    {g : α' → Except ε β'} (hx : Refines r x y) (hf : ∀ a a', r a a' → Refines s (f a) (g a')) :
    Refines s (x >>= f) (y >>= g) := by
  intro b hb
  obtain ⟨a, ha, hb⟩ := bind_eq_ok.mp hb
  obtain ⟨a', ha', hr⟩ := hx a ha
  obtain ⟨b', hb', hs⟩ := hf a a' hr b hb
  exact ⟨b', bind_eq_ok.mpr ⟨a', ha', hb'⟩, hs⟩

/-- Behind a step that both make. -/
theorem refines_bind_of_same {x : Except ε α} {f : α → Except ε β} {g : α → Except ε β'}
    (hf : ∀ a, Refines s (f a) (g a)) : Refines s (x >>= f) (x >>= g) := by
  intro b hb
  obtain ⟨a, ha, hb⟩ := bind_eq_ok.mp hb
  obtain ⟨b', hb', hs⟩ := hf a b hb
  exact ⟨b', bind_eq_ok.mpr ⟨a, ha, hb'⟩, hs⟩

theorem Refines.liftM {x : Except ArithmeticError α} {y : Except ArithmeticError α'}
    (hx : Refines r x y) :
    Refines r (liftM x : Except ControllerError α) (liftM y : Except ControllerError α') := by
  intro a ha
  obtain ⟨a', ha', hr⟩ := hx a (liftM_controller_eq_ok.mp ha)
  exact ⟨a', liftM_controller_eq_ok.mpr ha', hr⟩

/-- Two folds in lockstep. -/
theorem Refines.foldlM {f : α → β → Except ε α} {g : α' → β → Except ε α'} {l : List β}
    (hstep : ∀ b ∈ l, ∀ a a', r a a' → Refines r (f a b) (g a' b)) {a : α} {a' : α'}
    (ha : r a a') : Refines r (l.foldlM f a) (l.foldlM g a') := by
  induction l generalizing a a' with
  | nil => exact refines_pure ha
  | cons b rest ih =>
      rw [List.foldlM_cons, List.foldlM_cons]
      refine (hstep b List.mem_cons_self a a' ha).bind fun next next' hnext => ?_
      exact ih (fun b' hb' => hstep b' (List.mem_cons_of_mem b hb')) hnext

end Refines

end MoneyMarket
