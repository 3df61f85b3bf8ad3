import MoneyMarket.Proofs.Controller.Steps

/-! # Rights along runs

Without calls of the admin nothing changes that is the admin's to set: no role,
no setting, no credit limit, no listing and no terms of a market, and reserves
do not fall. What the admin left to a guardian changes only in calls of that
guardian, and what is paused stays paused.
-/

namespace MoneyMarket

variable {c c' c'' : Controller} {market : MarketId} {may may' : Role → Prop}

/-! ## Related options -/

theorem rel_trans {α : Type} {r : α → α → Prop} (hr : ∀ a b c, r a b → r b c → r a c)
    {x y z : Option α} (hxy : Option.Rel r x y) (hyz : Option.Rel r y z) : Option.Rel r x z := by
  cases hxy with
  | none => exact hyz
  | some hab =>
      cases hyz with
      | some hbc => exact .some (hr _ _ _ hab hbc)

theorem rel_mono {α : Type} {r s : α → α → Prop} (hrs : ∀ a b, r a b → s a b) {x y : Option α}
    (hxy : Option.Rel r x y) : Option.Rel s x y := by
  cases hxy with
  | none => exact .none
  | some hab => exact .some (hrs _ _ hab)

/-! ## Guardians and pauses -/

/-- What the admin leaves to guardians. -/
inductive Role where
  | pauses
  | supplyCaps
  | borrowCaps

/-- Whether an action is paused on one market. -/
def MarketPolicy.isPaused (policy : MarketPolicy) : Action → Bool
  | .mint => policy.mintPaused
  | .borrow => policy.borrowPaused
  | .flashloan => policy.flashloanPaused
  | .transfer | .seize => false

theorem MarketPolicy.isPaused_pausing (policy : MarketPolicy) (paused action : Action)
    (hpaused : policy.isPaused action = true) :
    (policy.pausing paused).isPaused action = true := by
  cases paused <;> cases action <;> first | rfl | exact hpaused

namespace Controller

/-- Whether an action is paused everywhere. -/
def isPaused (c : Controller) : Action → Bool
  | .transfer => c.transferPaused
  | .seize => c.seizePaused
  | .mint | .borrow | .flashloan => false

theorem isPaused_pausing (c : Controller) (paused action : Action)
    (hpaused : c.isPaused action = true) : (c.pausing paused).isPaused action = true := by
  cases paused <;> cases action <;> first | rfl | exact hpaused

/-- Who has a role. -/
def guardian? (c : Controller) : Role → Option AccountId
  | .pauses => c.pauseGuardian
  | .supplyCaps => c.supplyCapGuardian
  | .borrowCaps => c.borrowCapGuardian

/-- The call is made by the account that has a role. -/
def Call.IsBy (call : Call) (c : Controller) (role : Role) : Prop :=
  ∃ guardian, c.guardian? role = some guardian ∧ call.caller? = some guardian

/-- Each call needs the rights of somebody else than the admin at that moment,
or of nobody. -/
def Unprivileged (c : Controller) : List Call → Prop
  | [] => True
  | call :: rest => call.caller? ≠ some c.admin ∧ Unprivileged (c.after call) rest

end Controller

/-! ## Restraint -/

/-- The terms of a market stay, and its reserves do not fall. -/
structure Market.Restrained (m m' : Market) : Prop where
  reserveFactor : m'.reserveFactor = m.reserveFactor
  rateModel : m'.rateModel = m.rateModel
  collateralCap : m'.collateralCap? = m.collateralCap?
  reserves : m.totalReserves ≤ m'.totalReserves

/-- Only what some roles may change differs, and nothing is resumed. -/
structure Listing.Restrained (may : Role → Prop) (l l' : Listing) : Prop where
  state : l.state.Restrained l'.state
  isListed : l'.policy.isListed = l.policy.isListed
  collateralFactor : l'.policy.collateralFactor = l.policy.collateralFactor
  paused : ∀ action, l.policy.isPaused action = true → l'.policy.isPaused action = true
  pauses : ¬may .pauses → ∀ action, l'.policy.isPaused action = l.policy.isPaused action
  supplyCap : ¬may .supplyCaps → l'.policy.supplyCap = l.policy.supplyCap
  borrowCap : ¬may .borrowCaps → l'.policy.borrowCap = l.policy.borrowCap

/-- Only what some roles may change and what users do differs, and nothing is
resumed. -/
structure Controller.Restrained (may : Role → Prop) (c c' : Controller) : Prop where
  admin : c'.admin = c.admin
  guardians : ∀ role, c'.guardian? role = c.guardian? role
  closeFactor : c'.closeFactor = c.closeFactor
  liquidationIncentive : c'.liquidationIncentive = c.liquidationIncentive
  maxCollateralFactor : c'.maxCollateralFactor = c.maxCollateralFactor
  creditLimits : c'.creditLimits = c.creditLimits
  paused : ∀ action, c.isPaused action = true → c'.isPaused action = true
  pauses : ¬may .pauses → ∀ action, c'.isPaused action = c.isPaused action
  /-- The same markets are known, listed or not. -/
  listings : ∀ market,
    Option.Rel (Listing.Restrained may) (c.markets.get? market) (c'.markets.get? market)

theorem Market.Restrained.refl (m : Market) : m.Restrained m :=
  ⟨rfl, rfl, rfl, Nat.le_refl _⟩

theorem Market.Restrained.trans {m m' m'' : Market} (hfirst : m.Restrained m')
    (hsecond : m'.Restrained m'') : m.Restrained m'' where
  reserveFactor := hsecond.reserveFactor.trans hfirst.reserveFactor
  rateModel := hsecond.rateModel.trans hfirst.rateModel
  collateralCap := hsecond.collateralCap.trans hfirst.collateralCap
  reserves := Nat.le_trans hfirst.reserves hsecond.reserves

namespace Listing

theorem Restrained.refl (may : Role → Prop) (l : Listing) : l.Restrained may l :=
  ⟨.refl _, rfl, rfl, fun _ => id, fun _ _ => rfl, fun _ => rfl, fun _ => rfl⟩

theorem Restrained.trans {l l' l'' : Listing} (hfirst : l.Restrained may l')
    (hsecond : l'.Restrained may l'') : l.Restrained may l'' where
  state := hfirst.state.trans hsecond.state
  isListed := hsecond.isListed.trans hfirst.isListed
  collateralFactor := hsecond.collateralFactor.trans hfirst.collateralFactor
  paused action hpaused := hsecond.paused action (hfirst.paused action hpaused)
  pauses hno action := (hsecond.pauses hno action).trans (hfirst.pauses hno action)
  supplyCap hno := (hsecond.supplyCap hno).trans (hfirst.supplyCap hno)
  borrowCap hno := (hsecond.borrowCap hno).trans (hfirst.borrowCap hno)

theorem Restrained.mono {l l' : Listing} (hmay : ∀ role, may role → may' role)
    (hl : l.Restrained may l') : l.Restrained may' l' where
  state := hl.state
  isListed := hl.isListed
  collateralFactor := hl.collateralFactor
  paused := hl.paused
  pauses hno := hl.pauses (mt (hmay _) hno)
  supplyCap hno := hl.supplyCap (mt (hmay _) hno)
  borrowCap hno := hl.borrowCap (mt (hmay _) hno)

end Listing

namespace Controller

/-- The same markets. -/
theorem restrained_listings_of_eq (hmarkets : c'.markets = c.markets) (market : MarketId) :
    Option.Rel (Listing.Restrained may) (c.markets.get? market) (c'.markets.get? market) := by
  rw [hmarkets]
  cases c.markets.get? market with
  | none => exact .none
  | some listing => exact .some (.refl may listing)

theorem Restrained.refl (may : Role → Prop) (c : Controller) : c.Restrained may c :=
  ⟨rfl, fun _ => rfl, rfl, rfl, rfl, rfl, fun _ => id, fun _ _ => rfl,
    restrained_listings_of_eq rfl⟩

theorem Restrained.trans (hfirst : c.Restrained may c') (hsecond : c'.Restrained may c'') :
    c.Restrained may c'' where
  admin := hsecond.admin.trans hfirst.admin
  guardians role := (hsecond.guardians role).trans (hfirst.guardians role)
  closeFactor := hsecond.closeFactor.trans hfirst.closeFactor
  liquidationIncentive := hsecond.liquidationIncentive.trans hfirst.liquidationIncentive
  maxCollateralFactor := hsecond.maxCollateralFactor.trans hfirst.maxCollateralFactor
  creditLimits := hsecond.creditLimits.trans hfirst.creditLimits
  paused action hpaused := hsecond.paused action (hfirst.paused action hpaused)
  pauses hno action := (hsecond.pauses hno action).trans (hfirst.pauses hno action)
  listings market := rel_trans (fun _ _ _ hl hl' => hl.trans hl') (hfirst.listings market)
    (hsecond.listings market)

theorem Restrained.mono (hmay : ∀ role, may role → may' role) (hc : c.Restrained may c') :
    c.Restrained may' c' where
  admin := hc.admin
  guardians := hc.guardians
  closeFactor := hc.closeFactor
  liquidationIncentive := hc.liquidationIncentive
  maxCollateralFactor := hc.maxCollateralFactor
  creditLimits := hc.creditLimits
  paused := hc.paused
  pauses hno := hc.pauses (mt (hmay _) hno)
  listings market := rel_mono (fun _ _ => Listing.Restrained.mono hmay) (hc.listings market)

/-- The same markets are listed. -/
theorem Restrained.isListed_eq (hc : c.Restrained may c') (market : MarketId) :
    c'.isListed market = c.isListed market := by
  have hlisting := hc.listings market
  unfold isListed listed?
  generalize c.markets.get? market = listing at hlisting ⊢
  generalize c'.markets.get? market = listing' at hlisting ⊢
  cases hlisting with
  | none => rfl
  | some h =>
      simp only [Option.filter_some, h.isListed]
      split <;> rfl

/-! ## Steps -/

/-- The record of one market changes. -/
theorem restrained_setListing {listing listing' : Listing}
    (hlisted : c.listed? market = some listing) (hlisting : listing.Restrained may listing') :
    c.Restrained may (c.setListing market listing') := by
  refine { Restrained.refl may c with listings := ?_ }
  intro other
  rw [setListing, Registry.get?_insert]
  split
  next heq =>
    rw [← heq, (listed?_eq_some.mp hlisted).1]
    exact .some hlisting
  next => exact restrained_listings_of_eq rfl other

/-- Without the rights of the admin, a call of a market leaves its terms. -/
theorem Call.Makes.restrained {call : Call} {m m' : Market} {dealt : Market.Call}
    (hmakes : call.Makes c market dealt) (hcaller : call.caller? ≠ some c.admin)
    (hchange : m.Change dealt m') : m.Restrained m' := by
  have hcap : ∀ plan, m'.kind = m.kind.commit plan → m'.collateralCap? = m.collateralCap? := by
    intro plan hkind
    unfold Market.collateralCap?
    rw [hkind, MarketKind.ledger?_commit]
    cases m.kind.ledger? <;> cases plan <;> rfl
  cases hchange with
  | nothing => exact .refl m
  | accrued ha => exact ⟨rfl, rfl, rfl, Nat.le_trans (Nat.le_add_left _ _) ha.reserves.ge⟩
  | minted =>
      rw [Market.settleMint_fst] at hcap ⊢
      exact ⟨rfl, rfl, hcap _ rfl, Nat.le_refl _⟩
  | redeemed | underlyingRedeemed =>
      rw [Market.settleRedeem_fst] at hcap ⊢
      exact ⟨rfl, rfl, hcap _ rfl, Nat.le_refl _⟩
  | borrowed | repaid => exact ⟨rfl, rfl, rfl, Nat.le_refl _⟩
  | transferred | seized =>
      rw [Market.settleMove_fst] at hcap ⊢
      exact ⟨rfl, rfl, hcap _ rfl, Nat.le_refl _⟩
  | lent hp => exact ⟨rfl, rfl, rfl, Nat.le_trans (Nat.le_add_right _ _) hp.reserves.ge⟩
  | registered | unregistered =>
      rw [Market.settleRegistration, Market.commitCollateral_eq] at hcap ⊢
      exact ⟨rfl, rfl, hcap _ rfl, Nat.le_refl _⟩
  | reservesAdded _ hreserves =>
      exact ⟨rfl, rfl, rfl, Nat.le_trans (Nat.le_add_right _ _) hreserves.ge⟩
  | reservesReduced | reserveFactorSet | rateModelSet | capped => exact absurd hmakes hcaller

theorem Call.SetsPolicy.restrained {call : Call} {listing : Listing} {policy : MarketPolicy}
    (hsets : call.SetsPolicy c listing.policy policy) (hcaller : call.caller? ≠ some c.admin) :
    listing.Restrained (call.IsBy c) { listing with policy } := by
  have hlisted := hsets.isListed_eq
  cases hsets with
  | administered hadmin => exact absurd hadmin hcaller
  | supplyCapped hguardian hcaller' supplyCap =>
      refine { Listing.Restrained.refl (call.IsBy c) listing with supplyCap := ?_ }
      intro hno
      exact absurd ⟨_, hguardian, hcaller'⟩ hno
  | borrowCapped hguardian hcaller' borrowCap =>
      refine { Listing.Restrained.refl (call.IsBy c) listing with borrowCap := ?_ }
      intro hno
      exact absurd ⟨_, hguardian, hcaller'⟩ hno
  | paused hguardian hcaller' action =>
      have hby : call.IsBy c .pauses := ⟨_, hguardian, hcaller'⟩
      have hsame : ∀ policy : MarketPolicy,
          (policy.pausing action).collateralFactor = policy.collateralFactor ∧
            (policy.pausing action).supplyCap = policy.supplyCap ∧
            (policy.pausing action).borrowCap = policy.borrowCap := by
        intro policy
        cases action <;> exact ⟨rfl, rfl, rfl⟩
      obtain ⟨hcollateralFactor, hsupplyCap, hborrowCap⟩ := hsame listing.policy
      exact ⟨.refl _, hlisted, hcollateralFactor,
        listing.policy.isPaused_pausing action, fun hno => absurd hby hno,
        fun _ => hsupplyCap, fun _ => hborrowCap⟩

theorem Call.SetsTerms.restrained {call : Call} (hsets : call.SetsTerms c c')
    (hcaller : call.caller? ≠ some c.admin) : c.Restrained (call.IsBy c) c' := by
  cases hsets with
  | administered hadmin => exact absurd hadmin hcaller
  | paused hguardian hcaller' action =>
      have hby : call.IsBy c .pauses := ⟨_, hguardian, hcaller'⟩
      have hpaused := c.isPaused_pausing action
      cases action <;> exact { Restrained.refl (call.IsBy c) c with
        paused := hpaused
        pauses := fun hno => absurd hby hno }

/-- A step of a call that is not the admin's. -/
theorem Call.Step.restrained {call : Call} (hstep : call.Step c c')
    (hcaller : call.caller? ≠ some c.admin) : c.Restrained (call.IsBy c) c' := by
  cases hstep with
  | performed hperforms hmakes =>
      obtain ⟨listing, state, events, hlisted, hperform, rfl⟩ := hperforms
      refine restrained_setListing hlisted ?_
      exact { Listing.Restrained.refl (call.IsBy c) listing with
        state := hmakes.restrained hcaller (Market.change_of_perform hperform) }
  | entered | left => exact { Restrained.refl (call.IsBy c) c with }
  | listed hcall | delisted hcall =>
      subst hcall
      exact absurd rfl hcaller
  | policySet hlisted hsets => exact restrained_setListing hlisted (hsets.restrained hcaller)
  | termsSet hsets => exact hsets.restrained hcaller

/-! ## Calls and runs -/

/-- What the admin and the guardians may do does not change while a call goes on. -/
theorem Restrained.isBy_iff {call : Call} (hc : c.Restrained may c') (role : Role) :
    call.IsBy c' role ↔ call.IsBy c role := by
  unfold Call.IsBy
  rw [hc.guardians]

theorem Call.preserves_restrained {call : Call} (hcaller : call.caller? ≠ some c.admin) :
    call.Preserves (c.Restrained (call.IsBy c)) := by
  intro c₁ c₂ hc₁ hstep
  have hrest := hstep.restrained (hc₁.admin ▸ hcaller)
  exact hc₁.trans (hrest.mono fun role => (hc₁.isBy_iff role).mp)

/-- A call changes what its caller may change. -/
theorem restrained_after {call : Call} (hcaller : call.caller? ≠ some c.admin) :
    c.Restrained (call.IsBy c) (c.after call) :=
  (Call.preserves_restrained hcaller).keeps c (.refl _ c)

theorem Unprivileged.restrained_foldl {calls : List Call} (hcalls : c.Unprivileged calls) :
    c.Restrained (fun role => ∃ call ∈ calls, call.IsBy c role) (calls.foldl after c) := by
  induction calls generalizing c with
  | nil => exact .refl _ c
  | cons call rest ih =>
      obtain ⟨hcaller, hrest⟩ := hcalls
      have hfirst := restrained_after hcaller
      refine (hfirst.mono ?_).trans ((ih hrest).mono ?_)
      · intro role hby
        exact ⟨call, List.mem_cons_self, hby⟩
      · rintro role ⟨later, hlater, hby⟩
        exact ⟨later, List.mem_cons_of_mem _ hlater, (hfirst.isBy_iff role).mp hby⟩

theorem Unprivileged.of_append {earlier later : List Call}
    (hcalls : c.Unprivileged (earlier ++ later)) :
    (earlier.foldl after c).Unprivileged later := by
  induction earlier generalizing c with
  | nil => exact hcalls
  | cons call rest ih => exact ih hcalls.2

/-- In a run without calls of the admin, each call changes only what its caller
may change as a guardian, and so the run as a whole changes only what some of
its callers may. The admin remains the admin, and the same markets are listed. -/
theorem Unprivileged.run_restrained {calls : List Call} (hcalls : c.Unprivileged calls) :
    (∀ earlier call later, calls = earlier ++ call :: later →
      (earlier.foldl after c).Restrained (call.IsBy (earlier.foldl after c))
        ((earlier.foldl after c).after call)) ∧
    c.Restrained (fun role => ∃ call ∈ calls, call.IsBy c role) (calls.foldl after c) ∧
    ∀ market, (calls.foldl after c).isListed market = c.isListed market := by
  have hrun := hcalls.restrained_foldl
  refine ⟨?_, hrun, hrun.isListed_eq⟩
  rintro earlier call later rfl
  exact restrained_after hcalls.of_append.1

/-- The sample with guardians of pauses and supply caps. -/
def guardedSample : Controller :=
  [.setPauseGuardian ⟨"admin"⟩ (some ⟨"dave"⟩),
    .setSupplyCapGuardian ⟨"admin"⟩ (some ⟨"erin"⟩)].foldl after sample

/-- One guardian pauses, tries to resume and tries to raise the reserve factor;
the other one sets a cap, and a user adds to the reserves. -/
def guardedCalls : List Call :=
  [.setMintPaused ⟨"dave"⟩ ⟨"jUSD"⟩ true,
    .setSupplyCaps ⟨"erin"⟩ [(⟨"jUSD"⟩, ⟨5, by decide⟩)],
    .setMintPaused ⟨"dave"⟩ ⟨"jUSD"⟩ false,
    .setReserveFactor ⟨"dave"⟩ ⟨"jUSD"⟩ 1 0,
    .deal (.addReserves ⟨"bob"⟩ ⟨"jUSD"⟩ ⟨7, by decide⟩ 0)]

theorem guardedSample_restrained : guardedSample.Unprivileged guardedCalls ∧
    guardedSample.Restrained (fun role => ∃ call ∈ guardedCalls, call.IsBy guardedSample role)
      (guardedCalls.foldl after guardedSample) ∧
    (guardedSample.policy? ⟨"jUSD"⟩).map (·.isPaused .mint) = some false ∧
    ((guardedCalls.foldl after guardedSample).policy? ⟨"jUSD"⟩).map (·.isPaused .mint) =
      some true := by
  have hcalls : guardedSample.Unprivileged guardedCalls := by
    refine ⟨?_, ?_, ?_, ?_, ?_, trivial⟩
    all_goals decide +kernel
  refine ⟨hcalls, hcalls.run_restrained.2.1, ?_, ?_⟩
  · decide +kernel
  · decide +kernel

end Controller

end MoneyMarket
