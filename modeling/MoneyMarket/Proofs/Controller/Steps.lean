import MoneyMarket.Proofs.Controller.Run
import MoneyMarket.Proofs.Market.Registering
import MoneyMarket.Proofs.Memberships

/-! # Calls step by step

A call changes a controller in steps: it performs a call of a market, lets an
account enter or leave a market, lists or delists a market, or sets a policy or
a setting. Each step says what it was allowed by. What every step keeps, every
call keeps, whether it succeeds or fails.
-/

namespace MoneyMarket

variable {α : Type} {c c' : Controller} {market : MarketId} {now : UInt64} {prices : Prices}
  {account caller : AccountId} {amount : Amount} {paused : Bool}

/-- The policy with an action paused, if it can be paused on one market. -/
def MarketPolicy.pausing (policy : MarketPolicy) : Action → MarketPolicy
  | .mint => { policy with mintPaused := true }
  | .borrow => { policy with borrowPaused := true }
  | .flashloan => { policy with flashloanPaused := true }
  | .transfer | .seize => policy

/-- The cap of a kind. -/
def MarketPolicy.cap (policy : MarketPolicy) : CapKind → Amount
  | .supply => policy.supplyCap
  | .borrow => policy.borrowCap

/-- The time of a dealing, if it has one. -/
def Dealing.time? : Dealing → Option UInt64
  | .mint _ _ _ now | .redeem _ _ _ now _ | .redeemUnderlying _ _ _ now _ | .borrow _ _ _ now _
  | .repay _ _ _ _ now | .flashloan _ _ _ _ now | .liquidate _ _ _ _ _ now _
  | .addReserves _ _ _ now => some now
  | .transfer .. | .enterMarket .. | .enterMarkets .. | .leaveMarket .. => none

namespace Controller

/-- The controller with an action paused, if it can be paused everywhere. -/
def pausing (c : Controller) : Action → Controller
  | .transfer => { c with transferPaused := true }
  | .seize => { c with seizePaused := true }
  | .mint | .borrow | .flashloan => c

/-- The account whose rights a call needs. What users do needs none. -/
def Call.caller? : Call → Option AccountId
  | .deal _ | .accrue .. | .accrueAll _ => none
  | .listMarket caller .. | .delistMarket caller .. | .setCollateralFactor caller ..
  | .setCreditLimit caller .. | .setCloseFactor caller .. | .setLiquidationIncentive caller ..
  | .setSupplyCaps caller .. | .setBorrowCaps caller .. | .setMintPaused caller ..
  | .setBorrowPaused caller .. | .setFlashloanPaused caller .. | .setTransferPaused caller ..
  | .setSeizePaused caller .. | .setAdmin caller .. | .setPauseGuardian caller ..
  | .setSupplyCapGuardian caller .. | .setBorrowCapGuardian caller .. | .setReserveFactor caller ..
  | .setCollateralCap caller .. | .setInterestRateModel caller .. | .reduceReserves caller .. =>
      some caller

/-- The time of a call, if it has one. -/
def Call.time? : Call → Option UInt64
  | .deal dealing => dealing.time?
  | .accrue _ now | .accrueAll now | .setReserveFactor _ _ _ now | .setInterestRateModel _ _ _ now
  | .reduceReserves _ _ _ now => some now
  | _ => none

/-- Whether a call repays debts. -/
def Call.repays : Call → Bool
  | .deal (.repay ..) | .deal (.liquidate ..) => true
  | _ => false

/-- Whether a call books interest. -/
def Call.accrues : Call → Bool
  | .accrue .. | .accrueAll _ => true
  | _ => false

/-- Whether a call is a flashloan. -/
def Call.flashlends : Call → Bool
  | .deal (.flashloan ..) => true
  | _ => false

/-- Whether a call sets caps of a kind. -/
def Call.setsCaps : Call → CapKind → Bool
  | .setSupplyCaps .., .supply | .setBorrowCaps .., .borrow => true
  | _, _ => false

/-- A call is a liquidation in which an account takes tokens of a market. -/
def Call.Liquidates (call : Call) (account : AccountId) (market : MarketId) : Prop :=
  ∃ borrower marketBorrowed amount now prices,
    call = .deal (.liquidate account borrower marketBorrowed market amount now prices)

/-! ## Steps -/

/-- The calls of a market that a call may make. -/
def Call.Makes (call : Call) (c : Controller) (market : MarketId) : Market.Call → Prop
  | .setReserveFactor .. | .setRateModel .. | .setCollateralCap _ | .reduceReserves .. =>
      call.caller? = some c.admin
  | .accrue _ => call.accrues = true
  | .mint account amount isMember now =>
      isMember = c.isMember account market ∧ call = .deal (.mint account market amount now)
  | .transfer _ account _ isMember => isMember = c.isMember account market
  | .register account => c.isMember account market = true
  | .borrow account amount now =>
      c.isMember account market = true ∧
        ∃ prices, call = .deal (.borrow account market amount now prices)
  | .repay .. => call.repays = true
  | .flashloan .. => call.flashlends = true
  | .seize liquidator .. => call.Liquidates liquidator market
  | _ => True

/-- What a call may make of the policy of a listed market. -/
inductive Call.SetsPolicy (call : Call) (c : Controller) (policy : MarketPolicy) :
    MarketPolicy → Prop
  | administered {policy' : MarketPolicy} (hcaller : call.caller? = some c.admin)
      (hlisted : policy'.isListed = policy.isListed)
      (hcaps : ∀ kind, call.setsCaps kind = false → policy'.cap kind = policy.cap kind) :
      SetsPolicy call c policy policy'
  | supplyCapped {guardian : AccountId} (hguardian : c.supplyCapGuardian = some guardian)
      (hcaller : call.caller? = some guardian) (supplyCap : Amount)
      (hcall : call.setsCaps .supply = true) :
      SetsPolicy call c policy { policy with supplyCap }
  | borrowCapped {guardian : AccountId} (hguardian : c.borrowCapGuardian = some guardian)
      (hcaller : call.caller? = some guardian) (borrowCap : Amount)
      (hcall : call.setsCaps .borrow = true) :
      SetsPolicy call c policy { policy with borrowCap }
  | paused {guardian : AccountId} (hguardian : c.pauseGuardian = some guardian)
      (hcaller : call.caller? = some guardian) (action : Action) :
      SetsPolicy call c policy (policy.pausing action)

/-- What a call may set besides markets and memberships. -/
inductive Call.SetsTerms (call : Call) (c : Controller) : Controller → Prop
  | administered {c' : Controller} (hcaller : call.caller? = some c.admin)
      (hmarkets : c'.markets = c.markets) (hmemberships : c'.memberships = c.memberships) :
      SetsTerms call c c'
  | paused {guardian : AccountId} (hguardian : c.pauseGuardian = some guardian)
      (hcaller : call.caller? = some guardian) (action : Action) :
      SetsTerms call c (c.pausing action)

/-- A step of a call. -/
inductive Call.Step (call : Call) (c : Controller) : Controller → Prop
  | performed {market : MarketId} {dealt : Market.Call} {c' : Controller}
      (hperforms : c.Performs market dealt c') (hmakes : call.Makes c market dealt)
      (htime : ∀ now, dealt.time? = some now → call.time? = some now) : Step call c c'
  | entered {account : AccountId} {market : MarketId} {listing : Listing}
      (hlisted : c.listed? market = some listing) (hmember : c.isMember account market = false) :
      Step call c (c.setMemberships (c.memberships.enter account market))
  | left {account : AccountId} {market : MarketId} {listing : Listing}
      (hlisted : c.listed? market = some listing)
      (hdebt : listing.state.hasDebt account = false)
      (hregistered : listing.state.registersCollateral = true →
        listing.state.collateralTokens account = 0) :
      Step call c (c.setMemberships (c.memberships.leave account market))
  | listed {m : Market} {hm : m.Created} (hcall : call = .listMarket c.admin m hm)
      (hunlisted : c.isListed m.id = false) :
      Step call c (c.setListing m.id ⟨m, { isListed := true }⟩)
  | delisted {market : MarketId} {listing : Listing} (hcall : call = .delistMarket c.admin market)
      (hlisted : c.listed? market = some listing) (hsupply : listing.state.totalSupply = 0) :
      Step call c ((c.setListing market
        { listing with policy := { listing.policy with isListed := false } }).setMemberships
          (c.memberships.close market))
  | policySet {market : MarketId} {listing : Listing} {policy : MarketPolicy}
      (hlisted : c.listed? market = some listing)
      (hsets : call.SetsPolicy c listing.policy policy) :
      Step call c (c.setListing market { listing with policy })
  | termsSet {c' : Controller} (hsets : call.SetsTerms c c') : Step call c c'

theorem Call.SetsPolicy.isListed_eq {call : Call} {policy policy' : MarketPolicy}
    (hsets : call.SetsPolicy c policy policy') : policy'.isListed = policy.isListed := by
  cases hsets with
  | administered _ hlisted => exact hlisted
  | supplyCapped | borrowCapped => rfl
  | paused _ _ action => cases action <;> rfl

theorem Call.SetsPolicy.cap_eq {call : Call} {policy policy' : MarketPolicy} {kind : CapKind}
    (hsets : call.SetsPolicy c policy policy') (hcaps : call.setsCaps kind = false) :
    policy'.cap kind = policy.cap kind := by
  cases hsets with
  | administered _ _ hkept => exact hkept kind hcaps
  | supplyCapped _ _ _ hcall =>
      cases kind with
      | supply => cases hcall.symm.trans hcaps
      | borrow => rfl
  | borrowCapped _ _ _ hcall =>
      cases kind with
      | supply => rfl
      | borrow => cases hcall.symm.trans hcaps
  | paused _ _ action => cases kind <;> cases action <;> rfl

theorem Call.SetsTerms.markets_eq {call : Call} (hsets : call.SetsTerms c c') :
    c'.markets = c.markets := by
  cases hsets with
  | administered _ hmarkets => exact hmarkets
  | paused _ _ action => cases action <;> rfl

theorem Call.SetsTerms.memberships_eq {call : Call} (hsets : call.SetsTerms c c') :
    c'.memberships = c.memberships := by
  cases hsets with
  | administered _ _ hmemberships => exact hmemberships
  | paused _ _ action => cases action <;> rfl

/-- What every step of a call keeps. -/
def Call.Preserves (call : Call) (P : Controller → Prop) : Prop :=
  ∀ c c', P c → call.Step c c' → P c'

end Controller

namespace Controller.Call.Preserves

open Operation

variable {P : Controller → Prop} {call : Call}

/-! ## What users do -/

/-- An operation that comes down to one call of a market. -/
theorem keeps_performed {op : Operation α} {dealt : Controller → Market.Call}
    (hcall : call.Preserves P) (hop : op.Atomic)
    (hperforms : ∀ {c a c'}, op.runOn c = (.ok a, c') →
      c.Performs market (dealt c) c' ∧ call.Makes c market (dealt c))
    (htime : ∀ c now, (dealt c).time? = some now → call.time? = some now) : op.Keeps P := by
  refine hop.keeps ?_
  intro c a c' hc hrun
  obtain ⟨hdealt, hmakes⟩ := hperforms hrun
  exact hcall _ _ hc (.performed hdealt hmakes (htime c))

/-- Who enters becomes a member, and then its tokens are registered. -/
theorem enter {listing : Listing} {state : Market} {registered : List Event}
    (hcall : call.Preserves P) (hc : P c) (hlisted : c.listed? market = some listing)
    (hmember : c.isMember account market = false)
    (hregister : listing.state.perform (.register account) = .ok (state, registered)) :
    P ((c.setState market listing state).setMemberships (c.memberships.enter account market)) := by
  have hentered := hcall _ _ hc (.entered hlisted hmember)
  have hperforms : (c.setMemberships (c.memberships.enter account market)).Performs market
      (.register account) ((c.setState market listing state).setMemberships
        (c.memberships.enter account market)) :=
    ⟨listing, state, registered, hlisted, hregister, rfl⟩
  have hmakes : call.Makes (c.setMemberships (c.memberships.enter account market)) market
      (.register account) :=
    isMember_enter.mpr (.inr ⟨rfl, rfl⟩)
  exact hcall _ _ hentered (.performed hperforms hmakes nofun)

theorem keeps_enterMarket (hcall : call.Preserves P) : (enterMarket account market).Keeps P := by
  refine atomic_enterMarket.keeps ?_
  intro c events c' hc hrun
  obtain ⟨listing, hlisted, ⟨-, rfl⟩ | ⟨hmember, state, registered, hregister, rfl⟩⟩ :=
    enterMarket_eq_ok hrun
  · exact hc
  · exact hcall.enter hc hlisted hmember hregister

/-- Who leaves has unregistered its tokens before. -/
theorem keeps_leaveMarket (hcall : call.Preserves P) :
    (leaveMarket account market prices).Keeps P := by
  refine atomic_leaveMarket.keeps ?_
  intro c events c' hc hrun
  obtain ⟨listing, hlisted, ⟨-, rfl⟩ | ⟨-, hdebt, -, state, unregistered, hunregister, rfl⟩⟩ :=
    leaveMarket_eq_ok hrun
  · exact hc
  · have hperforms : c.Performs market (.unregister account) (c.setState market listing state) :=
      ⟨listing, state, unregistered, hlisted, hunregister, rfl⟩
    have hunregistered := hcall _ _ hc (.performed hperforms trivial nofun)
    have hchange := Market.change_of_perform hunregister
    refine hcall _ _ hunregistered (.left (listed?_setState_self state hlisted) ?_ ?_)
    · by_contra hcontra
      rcases hchange.hasDebt_or_borrows (Bool.eq_true_of_not_eq_false hcontra) with
        hbefore | ⟨_, _, hborrow⟩
      · exact Bool.false_ne_true (hdebt.symm.trans hbefore)
      · cases hborrow
    · intro hregisters
      exact Market.collateralTokens_of_unregister
        (hchange.registersCollateral_eq.symm.trans hregisters) hunregister

/-- Who is no member enters before it borrows. -/
theorem keeps_borrow
    (hcall : (Call.deal (.borrow account market amount now prices)).Preserves P) :
    (borrow account market amount now prices).Keeps P := by
  refine atomic_borrow.keeps ?_
  intro c events c' hc hrun
  obtain ⟨listing, plan, hlisted, hplan, ⟨hmember, -, rfl⟩ |
    ⟨hmember, state, registered, hregister, -, rfl⟩⟩ := borrow_eq_ok hrun
  · have hborrow : listing.state.perform (.borrow account amount now) =
        .ok (listing.state.settleBorrow plan) :=
      Market.perform_borrow_eq_ok.mpr ⟨plan, hplan, rfl, rfl⟩
    exact hcall _ _ hc
      (.performed ⟨listing, _, _, hlisted, hborrow, rfl⟩ ⟨hmember, _, rfl⟩ fun _ => id)
  · have hentered := hcall.enter hc hlisted hmember hregister
    rw [← planBorrow_of_register hregister] at hplan
    have hborrow : state.perform (.borrow account amount now) = .ok (state.settleBorrow plan) :=
      Market.perform_borrow_eq_ok.mpr ⟨plan, hplan, rfl, rfl⟩
    have hperforms : ((c.setState market listing state).setMemberships
        (c.memberships.enter account market)).Performs market (.borrow account amount now)
          ((c.setState market listing (state.settleBorrow plan).1).setMemberships
            (c.memberships.enter account market)) := by
      refine ⟨{ listing with state }, _, _, listed?_setState_self state hlisted, hborrow, ?_⟩
      rw [← setState_setState c market listing state (state.settleBorrow plan).1]
      rfl
    refine hcall _ _ hentered (.performed hperforms ⟨?_, _, rfl⟩ fun _ => id)
    exact isMember_enter.mpr (.inr ⟨rfl, rfl⟩)

theorem keeps_dealing {dealing : Dealing} (hcall : (Call.deal dealing).Preserves P) :
    dealing.operation.Keeps P := by
  cases dealing with
  | mint =>
      exact (hcall.keeps_performed atomic_mint
        (fun hrun => ⟨performs_of_mint hrun, rfl, rfl⟩) fun _ _ => id).silently
  | redeem =>
      exact (hcall.keeps_performed atomic_redeem
        (fun hrun => ⟨performs_of_redeem hrun, trivial⟩) fun _ _ => id).silently
  | redeemUnderlying =>
      exact (hcall.keeps_performed atomic_redeemUnderlying
        (fun hrun => ⟨performs_of_redeemUnderlying hrun, trivial⟩) fun _ _ => id).silently
  | borrow => exact hcall.keeps_borrow.silently
  | repay =>
      exact (hcall.keeps_performed atomic_repay
        (fun hrun => ⟨performs_of_repay hrun, rfl⟩) fun _ _ => id).silently
  | transfer =>
      exact (hcall.keeps_performed atomic_transfer
        (fun hrun => ⟨performs_of_transfer hrun, rfl⟩) fun _ _ => id).silently
  | flashloan =>
      exact (hcall.keeps_performed atomic_flashloan
        (fun hrun => ⟨performs_of_flashloan hrun, rfl⟩) fun _ _ => id).silently
  | enterMarket => exact hcall.keeps_enterMarket.silently
  | enterMarkets => exact (keeps_enterMarkets fun _ => hcall.keeps_enterMarket).silently
  | leaveMarket => exact hcall.keeps_leaveMarket.silently
  | liquidate =>
      refine (atomic_liquidate.keeps ?_).silently
      intro c _ c' hc hrun
      obtain ⟨c₁, hrepay, hseize⟩ := performs_of_liquidate hrun
      exact hcall _ _ (hcall _ _ hc (.performed hrepay rfl fun _ => id))
        (.performed hseize ⟨_, _, _, _, _, rfl⟩ fun _ => id)
  | addReserves =>
      exact (hcall.keeps_performed (atomic_tryOnMarket _)
        (fun hrun => ⟨performs_of_addReserves hrun, trivial⟩) fun _ _ => id).silently

/-! ## Administration -/

theorem keeps_listMarket {m : Market} {hm : m.Created}
    (hcall : (Call.listMarket caller m hm).Preserves P) :
    (Operation.listMarket caller m).Keeps P := by
  refine atomic_listMarket.keeps ?_
  intro c event c' hc hrun
  obtain ⟨rfl, hunlisted, rfl⟩ := listMarket_eq_ok hrun
  exact hcall _ _ hc (.listed rfl hunlisted)

theorem keeps_delistMarket (hcall : (Call.delistMarket caller market).Preserves P) :
    (Operation.delistMarket caller market).Keeps P := by
  refine atomic_delistMarket.keeps ?_
  intro c event c' hc hrun
  obtain ⟨rfl, listing, hlisted, hsupply, rfl⟩ := delistMarket_eq_ok hrun
  exact hcall _ _ hc (.delisted rfl hlisted hsupply)

theorem keeps_setCollateralFactor {collateralFactor : Wad} (hcall : call.Preserves P)
    (hcaller : call.caller? = some caller) :
    (Operation.setCollateralFactor caller market collateralFactor prices).Keeps P := by
  refine atomic_setCollateralFactor.keeps ?_
  intro c event c' hc hrun
  obtain ⟨rfl, listing, hlisted, rfl⟩ := setCollateralFactor_eq_ok hrun
  refine hcall _ _ hc (.policySet hlisted (.administered hcaller rfl ?_))
  rintro (_ | _) - <;> rfl

/-- What is set with the rights of the admin. -/
theorem keeps_setByAdmin {op : Operation Event} (hcall : call.Preserves P)
    (hcaller : call.caller? = some caller) (hop : op.Atomic)
    (hset : ∀ {c event c'}, op.runOn c = (.ok event, c') → SetByAdmin caller c c') :
    op.Keeps P := by
  refine hop.keeps ?_
  intro c event c' hc hrun
  obtain ⟨rfl, hmarkets, hmemberships⟩ := hset hrun
  exact hcall _ _ hc (.termsSet (.administered hcaller hmarkets hmemberships))

/-- Pausing or resuming on one market. -/
theorem keeps_pauseOnMarket {action : Action} {change : MarketPolicy → MarketPolicy}
    (hcall : call.Preserves P) (hcaller : call.caller? = some caller)
    (hchange : ∀ policy, (change policy).isListed = policy.isListed)
    (hcaps : ∀ policy kind, (change policy).cap kind = policy.cap kind)
    (hpauses : paused = true → ∀ policy, change policy = policy.pausing action) :
    (pauseOnMarket caller market action paused change).Keeps P := by
  refine atomic_pauseOnMarket.keeps ?_
  intro c event c' hc hrun
  obtain ⟨⟨hpaused, hguardian⟩ | rfl, listing, hlisted, rfl⟩ := pauseOnMarket_eq_ok hrun
  · rw [hpauses hpaused]
    exact hcall _ _ hc (.policySet hlisted (.paused hguardian hcaller action))
  · exact hcall _ _ hc (.policySet hlisted (.administered hcaller (hchange _) fun _ _ => hcaps _ _))

theorem keeps_setMintPaused (hcall : call.Preserves P)
    (hcaller : call.caller? = some caller) :
    (Operation.setMintPaused caller market paused).Keeps P := by
  refine hcall.keeps_pauseOnMarket hcaller (fun _ => rfl) ?_ ?_
  · rintro policy (_ | _) <;> rfl
  · rintro rfl policy
    rfl

theorem keeps_setBorrowPaused (hcall : call.Preserves P)
    (hcaller : call.caller? = some caller) :
    (Operation.setBorrowPaused caller market paused).Keeps P := by
  refine hcall.keeps_pauseOnMarket hcaller (fun _ => rfl) ?_ ?_
  · rintro policy (_ | _) <;> rfl
  · rintro rfl policy
    rfl

theorem keeps_setFlashloanPaused (hcall : call.Preserves P)
    (hcaller : call.caller? = some caller) :
    (Operation.setFlashloanPaused caller market paused).Keeps P := by
  refine hcall.keeps_pauseOnMarket hcaller (fun _ => rfl) ?_ ?_
  · rintro policy (_ | _) <;> rfl
  · rintro rfl policy
    rfl

theorem keeps_setTransferPaused (hcall : call.Preserves P)
    (hcaller : call.caller? = some caller) :
    (Operation.setTransferPaused caller paused).Keeps P := by
  refine atomic_setTransferPaused.keeps ?_
  intro c event c' hc hrun
  obtain ⟨⟨rfl, hguardian⟩ | rfl, rfl⟩ := setTransferPaused_eq_ok hrun
  · exact hcall _ _ hc (.termsSet (.paused hguardian hcaller .transfer))
  · exact hcall _ _ hc (.termsSet (.administered hcaller rfl rfl))

theorem keeps_setSeizePaused (hcall : call.Preserves P) (hcaller : call.caller? = some caller) :
    (Operation.setSeizePaused caller paused).Keeps P := by
  refine atomic_setSeizePaused.keeps ?_
  intro c event c' hc hrun
  obtain ⟨⟨rfl, hguardian⟩ | rfl, rfl⟩ := setSeizePaused_eq_ok hrun
  · exact hcall _ _ hc (.termsSet (.paused hguardian hcaller .seize))
  · exact hcall _ _ hc (.termsSet (.administered hcaller rfl rfl))

/-- Nobody loses rights while caps are set. -/
theorem keeps_setCaps {guardian : Controller → Option AccountId} {privilege : Privilege}
    {caps : List (MarketId × Amount)} {change : Amount → MarketPolicy → MarketPolicy}
    {tells : MarketId → Amount → Event} (hcall : call.Preserves P)
    (hguardian : ∀ c market listing, guardian (c.setListing market listing) = guardian c)
    (hsets : ∀ c cap policy, guardian c = some caller ∨ caller = c.admin →
      call.SetsPolicy c policy (change cap policy)) :
    (requireAdminOr guardian caller privilege >>= fun _ => setCaps caps change tells).Keeps P := by
  have hcaps : (setCaps caps change tells).Keeps fun c =>
      P c ∧ (guardian c = some caller ∨ caller = c.admin) := by
    apply Keeps.get_bind
    intro c _
    refine (reads_liftM _).keeps.bind fun _ => Keeps.mapM ?_ caps
    rintro ⟨market, cap⟩
    refine ((atomic_onPolicy _).keeps ?_).bind_pure _
    rintro c u c' ⟨hc, hright⟩ hrun
    obtain ⟨listing, hlisted, rfl⟩ := runOn_onPolicy_eq_ok.mp hrun
    refine ⟨hcall _ _ hc (.policySet hlisted (hsets c cap listing.policy hright)), ?_⟩
    rw [hguardian]
    exact hright
  intro c hc
  rw [runOn_requireAdminOr_bind]
  split
  next hright => exact (hcaps c ⟨hc, hright⟩).1
  next => exact hc

theorem keeps_setSupplyCaps {caps : List (MarketId × Amount)}
    (hcall : (Call.setSupplyCaps caller caps).Preserves P) :
    (Operation.setSupplyCaps caller caps).Keeps P := by
  refine hcall.keeps_setCaps (fun _ _ _ => rfl) ?_
  rintro c cap policy (hguardian | rfl)
  · exact .supplyCapped hguardian rfl cap rfl
  · refine .administered rfl rfl ?_
    rintro (_ | _) hcaps
    · cases hcaps
    · rfl

theorem keeps_setBorrowCaps {caps : List (MarketId × Amount)}
    (hcall : (Call.setBorrowCaps caller caps).Preserves P) :
    (Operation.setBorrowCaps caller caps).Keeps P := by
  refine hcall.keeps_setCaps (fun _ _ _ => rfl) ?_
  rintro c cap policy (hguardian | rfl)
  · exact .borrowCapped hguardian rfl cap rfl
  · refine .administered rfl rfl ?_
    rintro (_ | _) hcaps
    · rfl
    · cases hcaps

theorem keeps_accrue (hcall : call.Preserves P) (haccrues : call.accrues = true)
    (hnow : call.time? = some now) : (Operation.accrue market now).Keeps P :=
  hcall.keeps_performed (atomic_tryOnMarket _)
    (fun hrun => ⟨performs_of_accrue hrun, haccrues⟩) fun _ _ => hnow.trans

theorem keeps_accrueAll (hcall : call.Preserves P) (haccrues : call.accrues = true)
    (hnow : call.time? = some now) : (Operation.accrueAll now).Keeps P :=
  Keeps.get_bind fun _ _ =>
    (Keeps.mapM (fun _ => hcall.keeps_accrue haccrues hnow) _).bind_pure _

/-- What every step of a call keeps, the call keeps, whether it succeeds or
fails. -/
theorem keeps (hcall : call.Preserves P) : call.operation.Keeps P := by
  cases call with
  | deal => exact hcall.keeps_dealing
  | accrue => exact (hcall.keeps_accrue rfl rfl).silently
  | accrueAll => exact (hcall.keeps_accrueAll rfl rfl).silently
  | listMarket => exact hcall.keeps_listMarket.silently
  | delistMarket => exact hcall.keeps_delistMarket.silently
  | setCollateralFactor => exact (hcall.keeps_setCollateralFactor rfl).silently
  | setCreditLimit =>
      exact (hcall.keeps_setByAdmin rfl atomic_setCreditLimit setCreditLimit_eq_ok).silently
  | setCloseFactor =>
      exact (hcall.keeps_setByAdmin rfl atomic_setCloseFactor setCloseFactor_eq_ok).silently
  | setLiquidationIncentive =>
      exact (hcall.keeps_setByAdmin rfl atomic_setLiquidationIncentive
        setLiquidationIncentive_eq_ok).silently
  | setSupplyCaps => exact hcall.keeps_setSupplyCaps.silently
  | setBorrowCaps => exact hcall.keeps_setBorrowCaps.silently
  | setMintPaused => exact (hcall.keeps_setMintPaused rfl).silently
  | setBorrowPaused => exact (hcall.keeps_setBorrowPaused rfl).silently
  | setFlashloanPaused => exact (hcall.keeps_setFlashloanPaused rfl).silently
  | setTransferPaused => exact (hcall.keeps_setTransferPaused rfl).silently
  | setSeizePaused => exact (hcall.keeps_setSeizePaused rfl).silently
  | setAdmin => exact (hcall.keeps_setByAdmin rfl atomic_setAdmin setAdmin_eq_ok).silently
  | setPauseGuardian =>
      exact (hcall.keeps_setByAdmin rfl atomic_setPauseGuardian setPauseGuardian_eq_ok).silently
  | setSupplyCapGuardian =>
      exact (hcall.keeps_setByAdmin rfl atomic_setSupplyCapGuardian
        setSupplyCapGuardian_eq_ok).silently
  | setBorrowCapGuardian =>
      exact (hcall.keeps_setByAdmin rfl atomic_setBorrowCapGuardian
        setBorrowCapGuardian_eq_ok).silently
  | setReserveFactor =>
      exact (hcall.keeps_performed (atomic_tryOnMarket _).administered
        (fun hrun => (performs_of_setReserveFactor hrun).symm.imp_right (congrArg some))
        fun _ _ => id).silently
  | setCollateralCap =>
      exact (hcall.keeps_performed (atomic_tryOnMarket _).administered
        (fun hrun => (performs_of_setCollateralCap hrun).symm.imp_right (congrArg some))
        fun _ _ => id).silently
  | setInterestRateModel =>
      exact (hcall.keeps_performed (atomic_tryOnMarket _).administered
        (fun hrun => (performs_of_setInterestRateModel hrun).symm.imp_right (congrArg some))
        fun _ _ => id).silently
  | reduceReserves =>
      exact (hcall.keeps_performed (atomic_tryOnMarket _).administered
        (fun hrun => (performs_of_reduceReserves hrun).symm.imp_right (congrArg some))
        fun _ _ => id).silently

end Controller.Call.Preserves

/-- What controllers have when they are made and every step keeps, reachable
ones have. -/
theorem Controller.Reachable.invariant {P : Controller → Prop} (hc : c.Reachable)
    (hmade : ∀ c admin settings, make admin settings = .ok c → P c)
    (hcall : ∀ call : Call, call.Preserves P) : P c := by
  induction hc with
  | made hmake => exact hmade _ _ _ hmake
  | called call _ ih => exact (hcall call).keeps _ ih

end MoneyMarket
