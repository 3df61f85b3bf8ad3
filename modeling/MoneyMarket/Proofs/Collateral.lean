import MoneyMarket.Market.Collateral
import MoneyMarket.Proofs.FixedPoint

/-! # Planned registrations

What the steps of a collateral plan do to the registered tokens of every
account and to their total, and that committing a plan makes them real.
-/

namespace MoneyMarket.CollateralLedger

variable {l : CollateralLedger} {p p' : CollateralPlan} {account source target : AccountId}
  {amount : Amount}

@[simp]
theorem planned_unchanged (l : CollateralLedger) (account : AccountId) :
    l.planned l.unchanged account = l.tokensOf account := rfl

theorem planned_insert (l : CollateralLedger) (p : CollateralPlan) (total tokens : Amount)
    (account other : AccountId) :
    l.planned ⟨total, p.accounts.insert account tokens⟩ other =
      if account = other then tokens else l.planned p other := by
  unfold planned Registry.getD
  rw [Registry.get?_insert]
  split <;> rfl

/-- As many tokens are registered as the cap has room for. -/
theorem register_eq_ok (hregister : l.register p account amount = .ok p') :
    p'.total.toNat = p.total.toNat + min amount.toNat (l.room p).toNat ∧
      ∀ other, (l.planned p' other).toNat = (l.planned p other).toNat +
        if account = other then min amount.toNat (l.room p).toNat else 0 := by
  rw [← Amount.toNat_min]
  unfold register at hregister
  dsimp only at hregister
  split at hregister
  next hzero =>
    cases hregister
    simp [hzero]
  next =>
    simp only [bind_eq_ok, liftM_market_eq_ok, pure_eq_ok, Amount.add_eq_ok] at hregister
    obtain ⟨tokens, htokens, total, htotal, rfl⟩ := hregister
    refine ⟨htotal.symm, ?_⟩
    intro other
    rw [planned_insert]
    split
    next heq => rw [← htokens, heq]
    next => rfl

/-- Only registered tokens are released. -/
theorem release_eq_ok (hrelease : l.release p account amount = .ok p') :
    amount.toNat ≤ (l.planned p account).toNat ∧ p.total.toNat = p'.total.toNat + amount.toNat ∧
      ∀ other, (l.planned p other).toNat = (l.planned p' other).toNat +
        if account = other then amount.toNat else 0 := by
  unfold release at hrelease
  split at hrelease
  next hzero =>
    cases hrelease
    simp [hzero]
  next =>
    simp only [guard_eq_ok, Amount.lt_def, bind_eq_ok, liftM_market_eq_ok, pure_eq_ok,
      Amount.sub_eq_ok] at hrelease
    obtain ⟨hle, tokens, htokens, total, htotal, rfl⟩ := hrelease
    refine ⟨by omega, by rw [htotal, Nat.add_comm], ?_⟩
    intro other
    rw [planned_insert]
    split
    next heq => rw [← heq, htokens, Nat.add_comm]
    next => rfl

/-- Moving registered tokens leaves their total. -/
theorem move_eq_ok (hmove : l.move p source target amount = .ok p') :
    amount.toNat ≤ (l.planned p source).toNat ∧ p'.total.toNat = p.total.toNat ∧
      ∀ other, (l.planned p' other).toNat + (if source = other then amount.toNat else 0) =
        (l.planned p other).toNat + if target = other then amount.toNat else 0 := by
  simp only [move, bind_eq_ok, liftM_market_eq_ok, pure_eq_ok, Amount.add_eq_ok] at hmove
  obtain ⟨released, hrelease, tokens, htokens, total, htotal, rfl⟩ := hmove
  obtain ⟨hle, hrest, hreleased⟩ := release_eq_ok hrelease
  refine ⟨hle, by rw [hrest, ← htotal], ?_⟩
  intro other
  rw [planned_insert, hreleased other]
  by_cases heq : target = other
  · rw [if_pos heq, if_pos heq, ← htokens, heq]
    omega
  · rw [if_neg heq, if_neg heq]
    omega

/-! ## Errors of the steps -/

theorem avoids_register {e : ArithmeticError} (he : e ≠ .overflow) :
    Avoids (.arithmetic e) (l.register p account amount) := by
  unfold register
  dsimp only
  split
  · exact avoids_pure _ _
  · exact (Amount.avoids_add he).liftM.bind fun _ _ =>
      (Amount.avoids_add he).liftM.bind fun _ _ => avoids_pure _ _

/-- Registering fails where a sum does not fit. -/
theorem register_eq_error {e : MarketError} (herror : l.register p account amount = .error e) :
    e = .arithmetic .overflow := by
  unfold register at herror
  dsimp only at herror
  split at herror
  · exact absurd herror pure_ne_error
  · simp only [bind_eq_error, pure_ne_error, and_false, exists_const, or_false] at herror
    rcases herror with htokens | ⟨-, -, htotal⟩
    · exact Amount.liftM_add_eq_error htokens
    · exact Amount.liftM_add_eq_error htotal

theorem avoids_release {e : ArithmeticError} (he : e ≠ .underflow) :
    Avoids (.arithmetic e) (l.release p account amount) := by
  unfold release
  split
  · exact avoids_pure _ _
  · exact avoids_guard (by simp) fun _ => (Amount.avoids_sub he).liftM.bind fun _ _ =>
      (Amount.avoids_sub he).liftM.bind fun _ _ => avoids_pure _ _

/-! ## Committed plans -/

theorem of_foldl_set {entries : List (AccountId × Amount)}
    (hentries : entries.Pairwise fun a b => Name.Before a.1 b.1) (b : Balances)
    (account : AccountId) :
    (entries.foldl (fun tokens e => tokens.set e.1 e.2) b).of account =
      ((entries.find? fun e => e.1 = account).map Prod.snd).getD (b.of account) := by
  induction entries generalizing b with
  | nil => rfl
  | cons e rest ih =>
      obtain ⟨he, hrest⟩ := List.pairwise_cons.mp hentries
      rw [List.foldl_cons, ih hrest, Balances.of_set]
      by_cases heq : e.1 = account
      · have hnone : rest.find? (fun e => e.1 = account) = none := by
          simp only [List.find?_eq_none, decide_eq_true_eq]
          intro d hd hd'
          exact (he d hd).ne (heq.trans hd'.symm)
        simp [heq, hnone]
      · simp [heq]

/-- Committing a plan registers what is planned. -/
@[simp]
theorem tokensOf_commit (l : CollateralLedger) (p : CollateralPlan) (account : AccountId) :
    (l.commit p).tokensOf account = l.planned p account :=
  of_foldl_set p.accounts.ascending l.tokens account

/-- A plan that changes no account registers nothing. -/
theorem planned_of_isEmpty (hempty : p.isEmpty = true) :
    l.planned p account = l.tokensOf account := by
  have hentries : p.accounts.entries = [] := by
    simpa [CollateralPlan.isEmpty, Registry.isEmpty] using hempty
  simp [planned, Registry.getD, Registry.get?, hentries]

end MoneyMarket.CollateralLedger
