import MoneyMarket.Proofs.Controller.Enrolment
import MoneyMarket.Proofs.Controller.Entering
import MoneyMarket.Proofs.Controller.Soundness
import MoneyMarket.Proofs.Market.Replay

/-! # Leaving right after entering

Entering registers as many of an account's tokens as the cap lets in, and
leaving unregisters all of them. An account that has nothing registered and
leaves what it has just entered leaves no trace: the registrations, their total
and the memberships of all accounts are what they were. Registrations and
memberships hold no entries that say nothing, so they are the same entries too.
-/

namespace MoneyMarket

open Controller Market Operation

variable {account other : AccountId} {market : MarketId}

/-! ## Memberships -/

/-- Leaving what has just been entered keeps the other markets in their order,
and leaves no entry where there was none. -/
theorem Memberships.leave_enter {r : Memberships} (hr : r.NoBlanks)
    (hmarket : market ∉ r.of account) : (r.enter account market).leave account market = r := by
  have hentered : (r.enter account market).get? account = some (r.of account ++ [market]) := by
    rw [Memberships.enter, Registry.get?_insert, if_pos rfl]
  have hothers : (r.of account ++ [market]).filter (· ≠ market) = r.of account := by
    rw [List.filter_append, List.filter_eq_self.mpr]
    · simp
    · intro entered hentered
      exact decide_eq_true fun heq => hmarket (heq ▸ hentered)
  unfold leave
  rw [hentered]
  simp only [without, hothers]
  cases hof : r.of account with
  | nil =>
      have hnone : r.get? account = none := by
        cases hget : r.get? account with
        | none => rfl
        | some markets =>
            simp only [Memberships.of, Registry.getD, hget, Option.getD_some] at hof
            exact absurd (hof ▸ hget) (hr account)
      apply Registry.eq_of_get?_eq
      intro other
      rw [Registry.get?_erase, Memberships.enter, Registry.get?_insert]
      split
      next heq => rw [← heq, hnone]
      next => rfl
  | cons first rest =>
      have hget : r.get? account = some (first :: rest) := by
        cases hget : r.get? account with
        | none =>
            rw [Memberships.of, Registry.getD, hget] at hof
            cases hof
        | some markets =>
            rw [Memberships.of, Registry.getD, hget] at hof
            exact congrArg some hof
      simp only [Memberships.enter, Registry.insert_insert]
      exact Registry.insert_eq_self hget

/-! ## Registrations -/

/-- Balances without zeros are known by what accounts hold. -/
theorem Balances.NoZeros.eq_of_of_eq {b b' : Balances} (hb : b.NoZeros) (hb' : b'.NoZeros)
    (hof : ∀ account, b.of account = b'.of account) : b = b' := by
  have hget : ∀ {b : Balances}, b.NoZeros → ∀ account,
      b.get? account = if b.of account = 0 then none else some (b.of account) := by
    intro b hb account
    have hzero := hb account
    unfold Balances.of Registry.getD
    cases hget : b.get? account with
    | none => simp
    | some amount =>
        rw [hget] at hzero
        rw [Option.getD_some, if_neg (fun h => hzero (congrArg some h))]
  apply Registry.eq_of_get?_eq
  intro account
  rw [hget hb, hget hb', hof]

namespace CollateralLedger

variable {l l' l'' : CollateralLedger} {n : Nat}

/-- A ledger with more tokens of one account registered, and no other change. -/
structure Adds (l : CollateralLedger) (account : AccountId) (n : Nat) (l' : CollateralLedger) :
    Prop where
  cap : l'.cap = l.cap
  total : l'.total.toNat = l.total.toNat + n
  tokens : ∀ other, (l'.tokensOf other).toNat =
    (l.tokensOf other).toNat + if account = other then n else 0

/-- What has been added to is known by what it has become. -/
theorem Adds.unique (hl : l.tokens.NoZeros) (hl' : l'.tokens.NoZeros)
    (hadds : l.Adds account n l'') (hadds' : l'.Adds account n l'') : l = l' := by
  have htotal : l.total = l'.total :=
    Amount.ext (Nat.add_right_cancel (hadds.total.symm.trans hadds'.total))
  have htokens : l.tokens = l'.tokens := by
    apply hl.eq_of_of_eq hl'
    intro other
    exact Amount.ext (Nat.add_right_cancel ((hadds.tokens other).symm.trans (hadds'.tokens other)))
  have hcap : l.cap = l'.cap := hadds.cap.symm.trans hadds'.cap
  cases l
  cases l'
  congr

end CollateralLedger

theorem MarketKind.commit_collateralCap (ledger : CollateralLedger)
    (plan : Option CollateralPlan) :
    (collateralCap ledger).commit plan = collateralCap (plan.elim ledger ledger.commit) := by
  cases plan <;> rfl

namespace Market

variable {m m₁ m₂ : Market} {ledger : CollateralLedger} {entered left : List Event}

theorem adds_of_planRegister {plan : Option CollateralPlan}
    (hledger : m.kind.ledger? = some ledger) (hplan : m.planRegister account = .ok plan) :
    ∃ n, ledger.Adds account n (plan.elim ledger ledger.commit) := by
  simp only [planRegister, hledger, bind_eq_ok, pure_eq_ok] at hplan
  obtain ⟨registered, hregister, rfl⟩ := hplan
  split
  next => exact ⟨0, rfl, rfl, fun other => by simp⟩
  next =>
    obtain ⟨htotal, hplanned⟩ := CollateralLedger.register_eq_ok hregister
    refine ⟨_, rfl, htotal, ?_⟩
    intro other
    rw [Option.elim_some, CollateralLedger.tokensOf_commit]
    exact hplanned other

theorem adds_of_planUnregister {plan : Option (CollateralPlan × Amount)}
    (hledger : m.kind.ledger? = some ledger) (hplan : m.planUnregister account = .ok plan) :
    ((plan.map Prod.fst).elim ledger ledger.commit).Adds account
      (ledger.tokensOf account).toNat ledger := by
  simp only [planUnregister, hledger] at hplan
  split at hplan
  next hzero =>
    cases pure_eq_ok.mp hplan
    exact ⟨rfl, by simp [hzero], fun other => by simp [hzero]⟩
  next =>
    simp only [bind_eq_ok, pure_eq_ok] at hplan
    obtain ⟨released, hrelease, rfl⟩ := hplan
    obtain ⟨-, htotal, hplanned⟩ := CollateralLedger.release_eq_ok hrelease
    refine ⟨rfl, htotal, ?_⟩
    intro other
    rw [Option.map_some, Option.elim_some, CollateralLedger.tokensOf_commit]
    exact hplanned other

theorem noZeros_elim {plan : Option CollateralPlan} (hledger : ledger.tokens.NoZeros) :
    (plan.elim ledger ledger.commit).tokens.NoZeros := by
  cases plan with
  | none => exact hledger
  | some plan => exact CollateralLedger.noZeros_commit plan hledger

/-- Unregistering undoes registering, for accounts that had nothing registered. -/
theorem Orderly.eq_of_register_of_unregister (hm : m.Orderly)
    (hregistered : m.kind.registered.of account = 0)
    (hregister : m.perform (.register account) = .ok (m₁, entered))
    (hunregister : m₁.perform (.unregister account) = .ok (m₂, left)) : m₂ = m := by
  obtain ⟨plan, hplan, rfl, -⟩ := perform_register_eq_ok.mp hregister
  obtain ⟨plan', hplan', rfl, -⟩ := perform_unregister_eq_ok.mp hunregister
  suffices hkind : (m.kind.commit plan).commit (plan'.map Prod.fst) = m.kind by
    dsimp only
    rw [hkind]
  cases hcap : m.kind with
  | vanilla => cases plan <;> cases plan' <;> rfl
  | wrappedNative => cases plan <;> cases plan' <;> rfl
  | collateralCap ledger =>
      have hledger : m.kind.ledger? = some ledger := by rw [hcap]; rfl
      have hnone : ledger.tokensOf account = 0 := by
        rw [hcap] at hregistered
        exact hregistered
      obtain ⟨n, hadds⟩ := adds_of_planRegister hledger hplan
      -- all that is unregistered is what has just been registered
      have hledger₁ : (m.kind.commit plan).ledger? = some (plan.elim ledger ledger.commit) := by
        rw [MarketKind.ledger?_commit, hledger, Option.map_some]
      have hadds' := adds_of_planUnregister hledger₁ hplan'
      have htokens := hadds.tokens account
      rw [hnone, if_pos rfl, Amount.toNat_zero, Nat.zero_add] at htokens
      rw [htokens] at hadds'
      have hzeros := (hm.kind ledger hledger).2
      rw [MarketKind.commit_collateralCap, MarketKind.commit_collateralCap]
      exact congrArg MarketKind.collateralCap
        (hadds.unique hzeros (noZeros_elim (noZeros_elim hzeros)) hadds').symm

end Market

/-! ## The whole controller -/

/-- An account that is no member and has nothing registered in a market enters
it and leaves it at once: the controller is exactly what it was. -/
theorem Controller.Reachable.eq_of_enterMarket_of_leaveMarket {c c₁ c₂ : Controller}
    {prices : Prices} {entered left : List Event} (hc : c.Reachable)
    (hmember : c.isMember account market = false)
    (hregistered : ∀ listing, c.listed? market = some listing →
      listing.state.kind.registered.of account = 0)
    (henter : (enterMarket account market).runOn c = (.ok entered, c₁))
    (hleave : (leaveMarket account market prices).runOn c₁ = (.ok left, c₂)) : c₂ = c := by
  obtain ⟨listing, state, henters⟩ := Enters.of_enterMarket henter hmember
  obtain ⟨registered, hregister⟩ := henters.registers
  obtain ⟨listing₁, hlisted₁, ⟨hcontra, -⟩ | ⟨-, -, -, state₂, unregistered, hunregister, hc₂⟩⟩ :=
    leaveMarket_eq_ok hleave
  · rw [henters.isMember] at hcontra
    cases hcontra
  · cases henters.listed?_after.symm.trans hlisted₁
    have horderly : listing.state.Orderly :=
      (hc.sound.reachable_of_listed henters.listed).orderly
    have hstate : state₂ = listing.state :=
      horderly.eq_of_register_of_unregister (hregistered listing henters.listed) hregister
        hunregister
    have hmarket : market ∉ c.memberships.of account := by
      rw [← isMember_iff, hmember]
      exact Bool.false_ne_true
    have hmemberships : (c.memberships.enter account market).leave account market =
        c.memberships := Memberships.leave_enter hc.enrolled.noBlanks hmarket
    have hmarkets : (c.setState market listing state).setState market { listing with state }
        state₂ = c := by rw [setState_setState, hstate, setState_self henters.listed]
    rw [hc₂, henters.after]
    change ((c.setState market listing state).setState market { listing with state }
      state₂).setMemberships ((c.memberships.enter account market).leave account market) = c
    rw [hmarkets, hmemberships]
    rfl

/-- The sample with a cap that has room for four more tokens, and a supplier of
ten who is no member. -/
def Controller.partlyCapped : Controller :=
  [.setCollateralCap ⟨"admin"⟩ ⟨"jUSD"⟩ (.ofUInt64 1_000_000_014),
    .deal (.mint ⟨"carol"⟩ ⟨"jUSD"⟩ (.ofUInt64 10) 0)].foldl after sample

theorem Controller.partlyCapped_reachable : partlyCapped.Reachable := sample_reachable.foldl _

/-- The supplier enters with four of the ten tokens, and leaves. -/
theorem Controller.partlyCapped_eq_of_enterMarket_of_leaveMarket :
    partlyCapped.isMember ⟨"carol"⟩ ⟨"jUSD"⟩ = false ∧
    (∀ listing, partlyCapped.listed? ⟨"jUSD"⟩ = some listing →
      listing.state.kind.registered.of ⟨"carol"⟩ = 0) ∧
    ∃ c₁ left, (enterMarket ⟨"carol"⟩ ⟨"jUSD"⟩).runOn partlyCapped =
        (.ok [.marketEntered ⟨"jUSD"⟩ ⟨"carol"⟩,
          .collateralChanged ⟨"jUSD"⟩ ⟨"carol"⟩ (.ofUInt64 4)], c₁) ∧
      (leaveMarket ⟨"carol"⟩ ⟨"jUSD"⟩ samplePrices).runOn c₁ = (.ok left, partlyCapped) := by
  have hmember : partlyCapped.isMember ⟨"carol"⟩ ⟨"jUSD"⟩ = false := by decide +kernel
  have hregistered : ∀ listing, partlyCapped.listed? ⟨"jUSD"⟩ = some listing →
      listing.state.kind.registered.of ⟨"carol"⟩ = 0 := by
    intro listing hlisted
    have hnone : (partlyCapped.listed? ⟨"jUSD"⟩).map
        (fun listing => listing.state.kind.registered.of ⟨"carol"⟩) = some 0 := by decide +kernel
    rw [hlisted] at hnone
    exact Option.some.inj hnone
  have hentered : ((enterMarket ⟨"carol"⟩ ⟨"jUSD"⟩).runOn partlyCapped).1 =
      .ok [.marketEntered ⟨"jUSD"⟩ ⟨"carol"⟩,
        .collateralChanged ⟨"jUSD"⟩ ⟨"carol"⟩ (.ofUInt64 4)] := by decide +kernel
  have hleft : ((leaveMarket ⟨"carol"⟩ ⟨"jUSD"⟩ samplePrices).runOn
      ((enterMarket ⟨"carol"⟩ ⟨"jUSD"⟩).runOn partlyCapped).2).1 =
      .ok [.collateralChanged ⟨"jUSD"⟩ ⟨"carol"⟩ 0,
        .marketExited ⟨"jUSD"⟩ ⟨"carol"⟩] := by decide +kernel
  refine ⟨hmember, hregistered, ?_⟩
  cases henter : (enterMarket ⟨"carol"⟩ ⟨"jUSD"⟩).runOn partlyCapped with
  | mk entered c₁ =>
      rw [henter] at hentered hleft
      dsimp only at hentered hleft
      subst hentered
      cases hleave : (leaveMarket ⟨"carol"⟩ ⟨"jUSD"⟩ samplePrices).runOn c₁ with
      | mk left c₂ =>
          rw [hleave] at hleft
          dsimp only at hleft
          subst hleft
          have hback := partlyCapped_reachable.eq_of_enterMarket_of_leaveMarket hmember
            hregistered henter hleave
          exact ⟨c₁, _, rfl, hback ▸ hleave⟩

end MoneyMarket
