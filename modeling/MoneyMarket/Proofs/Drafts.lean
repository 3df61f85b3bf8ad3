import MoneyMarket.Proofs.Collateral
import MoneyMarket.Proofs.Entries
import MoneyMarket.Proofs.Totals

/-! # Drafts of collateral plans

A draft is a plan that steps lead to, from the plan that changes nothing. Every
step moves the total by what it moves the registrations by, so the total of a
draft is what its registrations come to once it is committed. No account has
more than the total registered, and so only too many tokens, or a total that
does not fit, make a step fail.
-/

namespace MoneyMarket.CollateralLedger

variable {l : CollateralLedger} {p p' : CollateralPlan} {account source target : AccountId}
  {amount : Amount}

/-- The total is what all accounts have registered. -/
def Balanced (l : CollateralLedger) : Prop := l.total.toNat = l.tokens.total

/-- The plans that steps lead to. -/
inductive Draft (l : CollateralLedger) : CollateralPlan → Prop
  | unchanged : Draft l l.unchanged
  | registered {p p' : CollateralPlan} {account : AccountId} {amount : Amount} (hp : Draft l p)
      (hregister : l.register p account amount = .ok p') : Draft l p'
  | released {p p' : CollateralPlan} {account : AccountId} {amount : Amount} (hp : Draft l p)
      (hrelease : l.release p account amount = .ok p') : Draft l p'
  | moved {p p' : CollateralPlan} {source target : AccountId} {amount : Amount} (hp : Draft l p)
      (hmove : l.move p source target amount = .ok p') : Draft l p'

/-- A step that keeps plans in step with their totals. -/
theorem balanced_commit_of_moved (source target : AccountId) {given gotten : Nat}
    (hp : (l.commit p).Balanced)
    (hplanned : ∀ other, (l.planned p' other).toNat + (if source = other then given else 0) =
      (l.planned p other).toNat + if target = other then gotten else 0)
    (htotal : p'.total.toNat + given = p.total.toNat + gotten) :
    (l.commit p').Balanced := by
  have hmoved : (l.commit p').tokens.total + given = (l.commit p).tokens.total + gotten := by
    apply Balances.total_moved source target
    intro other
    change ((l.commit p').tokensOf other).toNat + _ = ((l.commit p).tokensOf other).toNat + _
    rw [tokensOf_commit, tokensOf_commit]
    exact hplanned other
  have hbefore : p.total.toNat = (l.commit p).tokens.total := hp
  change p'.total.toNat = (l.commit p').tokens.total
  omega

theorem Draft.balanced (hp : l.Draft p) (hl : l.Balanced) : (l.commit p).Balanced := by
  induction hp with
  | unchanged => exact hl
  | @registered p p' account amount _ hregister ih =>
      obtain ⟨htotal, hplanned⟩ := register_eq_ok hregister
      have hgiven : ∀ other, (l.planned p' other).toNat + (if account = other then 0 else 0) =
          (l.planned p other).toNat + if account = other then min amount.toNat (l.room p).toNat
            else 0 := by
        intro other
        rw [ite_self]
        exact hplanned other
      exact balanced_commit_of_moved account account ih hgiven htotal
  | @released p p' account amount _ hrelease ih =>
      obtain ⟨-, htotal, hplanned⟩ := release_eq_ok hrelease
      have hgotten : ∀ other, (l.planned p' other).toNat + (if account = other then amount.toNat
          else 0) = (l.planned p other).toNat + if account = other then 0 else 0 := by
        intro other
        rw [ite_self]
        exact (hplanned other).symm
      exact balanced_commit_of_moved account account ih hgotten htotal.symm
  | @moved p p' source target amount _ hmove ih =>
      obtain ⟨-, htotal, hplanned⟩ := move_eq_ok hmove
      exact balanced_commit_of_moved source target ih hplanned
        (congrArg (· + amount.toNat) htotal)

theorem noZeros_commit (p : CollateralPlan) (hl : l.tokens.NoZeros) :
    (l.commit p).tokens.NoZeros :=
  hl.foldl_set p.accounts.entries

/-! ## Steps that succeed -/

theorem Draft.planned_le_total (hp : l.Draft p) (hl : l.Balanced) (account : AccountId) :
    (l.planned p account).toNat ≤ p.total.toNat := by
  have hle := (l.commit p).tokens.of_le_total account
  rw [← hp.balanced hl] at hle
  change ((l.commit p).tokensOf account).toNat ≤ _ at hle
  rwa [tokensOf_commit] at hle

/-- Registering succeeds where the total with all the tokens fits. -/
theorem Draft.exists_register (hp : l.Draft p) (hl : l.Balanced)
    (hfits : p.total.toNat + min amount.toNat (l.room p).toNat < 2 ^ 256) :
    ∃ p', l.register p account amount = .ok p' := by
  rw [← Amount.toNat_min] at hfits
  unfold register
  dsimp only
  split
  · exact ⟨p, rfl⟩
  · have hplanned := hp.planned_le_total hl account
    obtain ⟨total, htotal, -⟩ := Amount.exists_add hfits
    obtain ⟨tokens, htokens, -⟩ :=
      Amount.exists_add (a := l.planned p account) (b := min amount (l.room p)) (by omega)
    simp only [bind_eq_ok, liftM_market_eq_ok, pure_eq_ok]
    exact ⟨_, tokens, htokens, total, htotal, rfl⟩

/-- Releasing succeeds where the account has registered the tokens. -/
theorem Draft.exists_release (hp : l.Draft p) (hl : l.Balanced)
    (hle : amount.toNat ≤ (l.planned p account).toNat) :
    ∃ p', l.release p account amount = .ok p' := by
  unfold release
  split
  · exact ⟨p, rfl⟩
  · obtain ⟨tokens, htokens⟩ := Amount.exists_sub hle
    obtain ⟨total, htotal⟩ := Amount.exists_sub (hle.trans (hp.planned_le_total hl account))
    simp only [guard_eq_ok, Amount.lt_def, bind_eq_ok, liftM_market_eq_ok, pure_eq_ok]
    exact ⟨_, Nat.not_lt.mpr hle, tokens, htokens, total, htotal, rfl⟩

/-- Moving succeeds where the source has registered the tokens. -/
theorem Draft.exists_move (hp : l.Draft p) (hl : l.Balanced)
    (hle : amount.toNat ≤ (l.planned p source).toNat) :
    ∃ p', l.move p source target amount = .ok p' := by
  obtain ⟨released, hrelease⟩ := hp.exists_release hl hle
  obtain ⟨-, htotal, -⟩ := release_eq_ok hrelease
  have htarget := (hp.released hrelease).planned_le_total hl target
  have hfits : p.total.toNat < 2 ^ 256 := p.total.toNat_lt
  -- the target gets what was part of the total before
  obtain ⟨tokens, htokens, -⟩ :=
    Amount.exists_add (a := l.planned released target) (b := amount) (by omega)
  obtain ⟨total, htotal', -⟩ :=
    Amount.exists_add (a := released.total) (b := amount) (by omega)
  simp only [move, bind_eq_ok, liftM_market_eq_ok, pure_eq_ok]
  exact ⟨_, released, hrelease, tokens, htokens, total, htotal', rfl⟩

end MoneyMarket.CollateralLedger
