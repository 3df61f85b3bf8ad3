import MoneyMarket.Proofs.Controller.Approach
import MoneyMarket.Proofs.Controller.Enrolment
import MoneyMarket.Proofs.Controller.Gates
import MoneyMarket.Proofs.Controller.Valuation

/-! # Caps

A market has a cap on what belongs to its suppliers and one on what it has lent
out. The gates compare them with totals that they compute on their own. What
mints and borrows write is the same total, and of everything else only interest
and the fees of flashloans can raise it. So past its cap a total falls or stays
until interest is booked, and a mint or a borrow that is otherwise in order
goes through up to the cap and not past it.
-/

namespace MoneyMarket

open Controller Operation

variable {c c' : Controller} {m m' : Market} {market : MarketId} {kind : CapKind} {bound : Int}
  {listing : Listing} {account : AccountId} {amount total : Amount} {now : UInt64}
  {prices : Prices}

/-! ## Volumes -/

namespace Market

/-- What a cap bounds. What belongs to the suppliers is below nothing where the
reserves are not backed. -/
def volume (m : Market) : CapKind → Int
  | .supply => m.cash.toNat + m.totalBorrows.toNat - m.totalReserves.toNat
  | .borrow => m.totalBorrows.toNat

/-- Whether a call of a market may raise a volume. -/
def Call.raises : Call → CapKind → Bool
  | .accrue _, _ | .mint .., .supply | .flashloan .., .supply | .borrow .., .borrow => true
  | _, _ => false

theorem Change.volume_le {call : Call} (hchange : Change m call m')
    (hraises : call.raises kind = false) : m'.volume kind ≤ m.volume kind := by
  cases hchange with
  | accrued => cases kind <;> cases hraises
  | minted hp =>
      rw [settleMint_fst]
      cases kind with
      | supply => cases hraises
      | borrow => exact Int.le_refl _
  | redeemed hp | underlyingRedeemed hp =>
      rw [settleRedeem_fst]
      have hcash := hp.cash
      cases kind <;> simp only [volume] <;> omega
  | borrowed hp =>
      have hcash := hp.cash
      have hborrows := hp.borrows
      cases kind with
      | supply =>
          simp only [volume, settleBorrow, setDebt]
          omega
      | borrow => cases hraises
  | repaid hp =>
      have hcash := hp.cash
      have hborrows := hp.borrows
      cases kind <;> simp only [volume, settleRepay, setDebt] <;> omega
  | lent hp =>
      cases kind with
      | supply => cases hraises
      | borrow => exact Int.le_refl _
  | reservesAdded hcash hreserves | reservesReduced hcash hreserves =>
      cases kind <;> simp only [volume] <;> omega
  | transferred | seized =>
      rw [settleMove_fst]
      cases kind <;> exact Int.le_refl _
  | registered | unregistered =>
      rw [settleRegistration, commitCollateral_eq]
      cases kind <;> exact Int.le_refl _
  | nothing | reserveFactorSet | rateModelSet | capped => cases kind <;> exact Int.le_refl _

theorem Created.volume_eq (hm : m.Created) (kind : CapKind) : m.volume kind = 0 := by
  have hnew := hm.isNew
  cases kind <;> simp [volume, hnew.cash, hnew.borrows, hnew.reserves]

end Market

/-! ## Calls that do not add to a volume -/

/-- A dealing adds to a volume of a market, and has to stay under its cap. -/
inductive Dealing.Adds (market : MarketId) : Dealing → CapKind → Prop
  | minted {minter : AccountId} {amount : Amount} {now : UInt64} :
      Adds market (.mint minter market amount now) .supply
  | borrowed {borrower : AccountId} {amount : Amount} {now : UInt64} {prices : Prices} :
      Adds market (.borrow borrower market amount now prices) .borrow

namespace Controller

/-- Whether a call may take a volume past its cap. -/
def Call.earns (call : Call) : CapKind → Bool
  | .supply => call.accrues || call.flashlends
  | .borrow => call.accrues

/-- What raises a volume of a market earns interest or fees, or is a dealing
that adds to it. -/
theorem Call.Makes.adds {call : Call} {dealt : Market.Call} (hmakes : call.Makes c market dealt)
    (hraises : dealt.raises kind = true) (hearns : call.earns kind = false) :
    ∃ dealing, call = .deal dealing ∧ dealing.Adds market kind := by
  cases dealt with
  | accrue =>
      have haccrues : call.accrues = true := hmakes
      cases kind <;> simp [earns, haccrues] at hearns
  | mint =>
      cases kind with
      | supply => exact ⟨_, hmakes.2, .minted⟩
      | borrow => cases hraises
  | borrow =>
      cases kind with
      | supply => cases hraises
      | borrow =>
          obtain ⟨-, prices, hcall⟩ := hmakes
          exact ⟨_, hcall, .borrowed⟩
  | flashloan =>
      have hflashlends : call.flashlends = true := hmakes
      cases kind with
      | supply => simp [earns, hflashlends] at hearns
      | borrow => cases hraises
  | _ => cases kind <;> cases hraises

/-- A volume of a market is at most a bound. -/
def VolumeLe (market : MarketId) (kind : CapKind) (bound : Int) (c : Controller) : Prop :=
  ∃ m, c.market? market = some m ∧ m.volume kind ≤ bound

theorem market?_setListing (c : Controller) (market other : MarketId) (listing : Listing) :
    (c.setListing market listing).market? other =
      if market = other then some listing.state else c.market? other := by
  unfold market? setListing
  rw [Registry.get?_insert]
  split <;> rfl

theorem market?_of_listed? (hlisted : c.listed? market = some listing) :
    c.market? market = some listing.state := by
  rw [market?, (listed?_eq_some.mp hlisted).1]
  rfl

/-- The listed market is the one that is known. -/
theorem VolumeLe.le (hc : c.VolumeLe market kind bound)
    (hlisted : c.listed? market = some listing) : listing.state.volume kind ≤ bound := by
  obtain ⟨m, hm, hle⟩ := hc
  cases hm.symm.trans (market?_of_listed? hlisted)
  exact hle

theorem VolumeLe.setListing {other : MarketId} (hc : c.VolumeLe market kind bound)
    (hle : other = market → listing.state.volume kind ≤ bound) :
    (c.setListing other listing).VolumeLe market kind bound := by
  unfold VolumeLe
  rw [market?_setListing]
  split
  next heq => exact ⟨listing.state, rfl, hle heq⟩
  next => exact hc

/-- Policies do not matter. -/
theorem VolumeLe.setPolicy {other : MarketId} {policy : MarketPolicy}
    (hc : c.VolumeLe market kind bound) (hlisted : c.listed? other = some listing) :
    (c.setListing other { listing with policy }).VolumeLe market kind bound := by
  refine hc.setListing ?_
  rintro rfl
  exact (hc.le hlisted :)

/-- No other call takes a volume past a bound. -/
theorem Call.preserves_volumeLe {call : Call} (hearns : call.earns kind = false)
    (hadds : ∀ dealing, call = .deal dealing → ¬dealing.Adds market kind) (hbound : 0 ≤ bound) :
    call.Preserves (VolumeLe market kind bound) := by
  intro c c' hc hstep
  cases hstep with
  | @performed other dealt _ hperforms hmakes =>
      obtain ⟨listing, state, events, hlisted, hperform, rfl⟩ := hperforms
      refine hc.setListing ?_
      rintro rfl
      refine Int.le_trans ((Market.change_of_perform hperform).volume_le ?_) (hc.le hlisted)
      refine Bool.eq_false_of_not_eq_true fun hraises => ?_
      obtain ⟨dealing, hcall, hdealing⟩ := hmakes.adds hraises hearns
      exact hadds dealing hcall hdealing
  | entered | left => exact hc
  | @listed m hm =>
      -- whatever stood under the name, nothing is in a new market
      exact hc.setListing fun _ => (hm.volume_eq kind).trans_le hbound
  | delisted _ hlisted => exact hc.setPolicy hlisted
  | policySet hlisted => exact hc.setPolicy hlisted
  | termsSet hsets =>
      unfold VolumeLe market?
      rw [hsets.markets_eq]
      exact hc

end Controller

/-! ## Without caps -/

/-- The listing with both caps lifted. -/
def Listing.uncapped (listing : Listing) : Listing :=
  { listing with policy := { listing.policy with supplyCap := 0, borrowCap := 0 } }

namespace Controller

/-- The controller with both caps on a market lifted. -/
def uncapped (c : Controller) (market : MarketId) : Controller :=
  match c.markets.get? market with
  | some listing => c.setListing market listing.uncapped
  | none => c

theorem uncapped_eq (hlisted : c.listed? market = some listing) :
    c.uncapped market = c.setListing market listing.uncapped := by
  unfold uncapped
  rw [(listed?_eq_some.mp hlisted).1]

theorem exists_listed?_of_uncapped (hlisted : (c.uncapped market).listed? market = some listing) :
    ∃ capped, c.listed? market = some capped ∧ listing = capped.uncapped := by
  unfold uncapped at hlisted
  split at hlisted
  next capped hget =>
    rw [listed?_setListing, if_pos rfl] at hlisted
    split at hlisted
    next hpolicy =>
      exact ⟨capped, listed?_eq_some.mpr ⟨hget, hpolicy⟩, (Option.some.inj hlisted).symm⟩
    next => cases hlisted
  next hget => cases hget.symm.trans (listed?_eq_some.mp hlisted).1

section

variable (hlisted : c.listed? market = some listing)
include hlisted

theorem get?_uncapped (other : MarketId) :
    (c.uncapped market).markets.get? other =
      if market = other then some listing.uncapped else c.markets.get? other := by
  rw [uncapped_eq hlisted, setListing, Registry.get?_insert]

theorem exposureAfter_uncapped (change : Option Hypothetical) :
    (c.uncapped market).exposureAfter account change = c.exposureAfter account change := by
  have hget := (listed?_eq_some.mp hlisted).1
  have hmem : ∀ k, k ∈ (c.uncapped market).exposure account ↔ k ∈ c.exposure account := by
    intro k
    rw [mem_exposure, mem_exposure, get?_uncapped hlisted, uncapped_eq hlisted]
    by_cases heq : market = k
    · subst heq
      rw [if_pos rfl, hget]
      simp [Listing.uncapped, setListing, isMember, marketsOf]
    · rw [if_neg heq]
      rfl
  apply exposureAfter_ext
  intro k
  cases change with
  | none => exact hmem k
  | some a => simp only [exposureAfter, Name.mem_insertDistinct, hmem]

theorem addMarket_uncapped (change : Option Hypothetical) (sums : Sums) (k : MarketId) :
    (c.uncapped market).addMarket account change prices sums k =
      c.addMarket account change prices sums k := by
  unfold addMarket
  rw [get?_uncapped hlisted, uncapped_eq hlisted]
  by_cases heq : market = k
  · subst heq
    rw [if_pos rfl, (listed?_eq_some.mp hlisted).1]
    rfl
  · rw [if_neg heq]
    rfl

/-- No liquidity depends on caps. -/
theorem liquidityAfter_uncapped (change : Option Hypothetical) :
    (c.uncapped market).liquidityAfter account change prices =
      c.liquidityAfter account change prices := by
  have hlimit : (c.uncapped market).creditLimit? account = c.creditLimit? account := by
    rw [uncapped_eq hlisted]
    rfl
  unfold liquidityAfter
  rw [hlimit, exposureAfter_uncapped hlisted, funext₂ (addMarket_uncapped hlisted change)]

end

/-! ## At the cap -/

/-- The answer where only a cap is in question. -/
def capVerdict (kind : CapKind) (cap total : Amount) : Verdict :=
  if cap < total then .reject (.capExceeded kind cap total) else .allow

theorem demand_capVerdict (kind : CapKind) (cap total : Amount) :
    (capVerdict kind cap total).demand =
      if cap < total then .error (.rejected (.capExceeded kind cap total)) else .ok () := by
  unfold capVerdict
  split <;> rfl

theorem mintVerdict_of_uncapped (hlisted : c.listed? market = some listing)
    (hallow : (c.uncapped market).mintVerdict market amount = .ok .allow)
    (hcap : listing.policy.supplyCap ≠ 0)
    (htotal : listing.state.volume .supply + amount.toNat = total.toNat) :
    c.mintVerdict market amount = .ok (capVerdict .supply listing.policy.supplyCap total) := by
  obtain ⟨_, supplied, hfound, hrunning, hsupplied, -⟩ := mintVerdict_eq_allow_iff.mp hallow
  obtain ⟨_, hsame, rfl⟩ := exists_listed?_of_uncapped hfound
  cases hlisted.symm.trans hsame
  obtain ⟨hbacked, hvalue⟩ := Market.supplied_eq_ok hsupplied
  have hsum : supplied.toNat + amount.toNat = total.toNat := by
    rw [hvalue, Market.netAssets]
    simp only [Market.volume, Listing.uncapped] at htotal hbacked ⊢
    omega
  have hpaused : listing.policy.mintPaused = false := hrunning
  have hrejection : capRejection? .supply listing.policy.supplyCap supplied amount = _ :=
    capRejection?_of_fits hcap hsum
  unfold capVerdict
  split
  next hlt =>
    rw [if_pos hlt] at hrejection
    unfold mintVerdict
    rw [hlisted]
    simp only [hpaused, Bool.false_eq_true, if_false]
    exact bind_eq_ok.mpr
      ⟨supplied, liftM_controller_eq_ok.mpr hsupplied, bind_eq_ok.mpr ⟨_, hrejection, rfl⟩⟩
  next hle =>
    rw [if_neg hle] at hrejection
    exact mintVerdict_eq_allow_iff.mpr ⟨listing, supplied, hlisted, hpaused, hsupplied, hrejection⟩

theorem borrowVerdict_of_uncapped {entering : Option Amount}
    (hlisted : c.listed? market = some listing)
    (hallow : (c.uncapped market).borrowVerdict market account amount entering prices = .ok .allow)
    (hcap : listing.policy.borrowCap ≠ 0)
    (htotal : listing.state.volume .borrow + amount.toNat = total.toNat) :
    c.borrowVerdict market account amount entering prices =
      .ok (capVerdict .borrow listing.policy.borrowCap total) := by
  obtain ⟨_, price, l, hfound, hrunning, hprice, -, hl, hsolvent⟩ :=
    borrowVerdict_eq_allow_iff.mp hallow
  obtain ⟨_, hsame, rfl⟩ := exists_listed?_of_uncapped hfound
  cases hlisted.symm.trans hsame
  have hsum : listing.state.totalBorrows.toNat + amount.toNat = total.toNat := by
    simp only [Market.volume] at htotal
    omega
  have hpaused : listing.policy.borrowPaused = false := hrunning
  rw [liquidityAfter_uncapped hlisted] at hl
  have hrejection : capRejection? .borrow listing.policy.borrowCap listing.state.totalBorrows
      amount = _ := capRejection?_of_fits hcap hsum
  unfold capVerdict
  split
  next hlt =>
    rw [if_pos hlt] at hrejection
    unfold borrowVerdict
    rw [hlisted]
    simp only [hpaused, Bool.false_eq_true, if_false]
    exact bind_eq_ok.mpr ⟨price, hprice, bind_eq_ok.mpr ⟨_, hrejection, rfl⟩⟩
  next hle =>
    rw [if_neg hle] at hrejection
    exact borrowVerdict_eq_allow_iff.mpr
      ⟨listing, price, l, hlisted, hpaused, hprice, hrejection, hl, hsolvent⟩

theorem volume_le_of_mintVerdict (hlisted : c.listed? market = some listing)
    (hverdict : c.mintVerdict market amount = .ok .allow) (hcap : listing.policy.supplyCap ≠ 0) :
    listing.state.volume .supply + amount.toNat ≤ listing.policy.supplyCap.toNat := by
  obtain ⟨_, supplied, hsame, -, hsupplied, hrejection⟩ := mintVerdict_eq_allow_iff.mp hverdict
  cases hlisted.symm.trans hsame
  obtain ⟨hbacked, hvalue⟩ := Market.supplied_eq_ok hsupplied
  have hle := (capRejection?_eq_none.mp hrejection).resolve_left hcap
  rw [hvalue, Market.netAssets] at hle
  simp only [Market.volume]
  omega

theorem volume_le_of_borrowVerdict {entering : Option Amount}
    (hlisted : c.listed? market = some listing)
    (hverdict : c.borrowVerdict market account amount entering prices = .ok .allow)
    (hcap : listing.policy.borrowCap ≠ 0) :
    listing.state.volume .borrow + amount.toNat ≤ listing.policy.borrowCap.toNat := by
  obtain ⟨_, _, _, hsame, -, -, hrejection, -⟩ := borrowVerdict_eq_allow_iff.mp hverdict
  cases hlisted.symm.trans hsame
  have hle := (capRejection?_eq_none.mp hrejection).resolve_left hcap
  simp only [Market.volume]
  omega

end Controller

/-! ## Dealings that add to a volume -/

namespace Operation

theorem volume_of_mint {events : List Event}
    (hmint : (mint account market amount now).runOn c = (.ok events, c')) :
    ∃ listing m', c.listed? market = some listing ∧ c.mintVerdict market amount = .ok .allow ∧
      c'.market? market = some m' ∧
      m'.volume .supply = listing.state.volume .supply + amount.toNat := by
  obtain ⟨listing, plan, hlisted, hplan, hverdict, rfl⟩ := mint_eq_ok hmint
  have hcash := (Market.planMint_fits hplan).cash
  refine ⟨listing, _, hlisted, hverdict, (market?_setListing ..).trans (if_pos rfl), ?_⟩
  rw [Market.settleMint_fst]
  simp only [Market.volume]
  omega

/-- Registering on the way does not lend anything out. -/
theorem volume_of_borrow {events : List Event}
    (hborrow : (borrow account market amount now prices).runOn c = (.ok events, c')) :
    ∃ listing m' entering, c.listed? market = some listing ∧
      c.borrowVerdict market account amount entering prices = .ok .allow ∧
      c'.market? market = some m' ∧
      m'.volume .borrow = listing.state.volume .borrow + amount.toNat := by
  obtain ⟨listing, plan, hlisted, hplan, hborrowed⟩ := borrow_eq_ok hborrow
  have hborrows := (Market.planBorrow_fits hplan).borrows
  have hvolume : ∀ state : Market, (state.settleBorrow plan).1.volume .borrow =
      listing.state.volume .borrow + amount.toNat := by
    intro state
    simp only [Market.volume, Market.settleBorrow, Market.setDebt]
    omega
  rcases hborrowed with ⟨-, hverdict, rfl⟩ | ⟨-, state, _, -, hverdict, rfl⟩
  · exact ⟨listing, _, none, hlisted, hverdict, (market?_setListing ..).trans (if_pos rfl),
      hvolume _⟩
  · exact ⟨listing, _, _, hlisted, hverdict, (market?_setListing ..).trans (if_pos rfl),
      hvolume _⟩

/-- A mint that can be planned is decided at its gate. -/
theorem runOn_mint_fst {plan : MintPlan} (hlisted : c.listed? market = some listing)
    (hplan : listing.state.planMint account amount (c.isMember account market) now = .ok plan) :
    ((mint account market amount now).silently.runOn c).1 =
      c.mintVerdict market amount >>= Verdict.demand := by
  have hplanned : (planOn market fun m =>
      m.planMint account amount (c.isMember account market) now).runOn c = (.ok plan, c) :=
    runOn_planOn_eq_ok.mpr ⟨listing, hlisted, hplan, rfl⟩
  rw [mint, silently_bind, runOn_get_bind, silently_bind, runOn_bind_of_ok hplanned]
  exact runOn_passGate_bind_fst ⟨_, _, runOn_onMarket_of_listed hlisted⟩

/-- Without the caps a borrow comes to the same gate, with the same collateral
on entry. -/
theorem runOn_borrow_fst_of_uncapped {events : List Event}
    (hborrow : (borrow account market amount now prices).runOn (c.uncapped market) =
      (.ok events, c')) :
    ∃ entering, (c.uncapped market).borrowVerdict market account amount entering prices =
        .ok .allow ∧
      ((Dealing.borrow account market amount now prices).operation.runOn c).1 =
        c.borrowVerdict market account amount entering prices >>= Verdict.demand := by
  obtain ⟨_, plan, hfound, hplan, hborrowed⟩ := borrow_eq_ok hborrow
  obtain ⟨listing, hlisted, rfl⟩ := exists_listed?_of_uncapped hfound
  have hmembers : (c.uncapped market).isMember account market = c.isMember account market := by
    rw [uncapped_eq hlisted]
    rfl
  rw [hmembers] at hborrowed
  rcases hborrowed with ⟨hmember, hverdict, -⟩ | ⟨hmember, state, _, hregister, hverdict, -⟩
  · exact ⟨none, hverdict, (Dealing.borrow_comesTo_of_member hlisted hmember hplan).runOn_fst⟩
  · exact ⟨_, hverdict,
      (Dealing.borrow_comesTo_of_register hlisted hmember hregister hplan).runOn_fst⟩

end Operation

namespace Dealing.Adds

variable {dealing : Dealing}

theorem volume_le_cap (hadds : dealing.Adds market kind) (hm : c.markets.get? market = some listing)
    (hcap : listing.policy.cap kind ≠ 0) (hrun : dealing.operation.runOn c = (.ok (), c')) :
    c'.VolumeLe market kind (listing.policy.cap kind).toNat := by
  cases hadds with
  | minted =>
      obtain ⟨events, hmint⟩ := runOn_silently_eq_ok.mp hrun
      obtain ⟨_, m', hlisted, hverdict, hm', hvolume⟩ := volume_of_mint hmint
      cases hm.symm.trans (listed?_eq_some.mp hlisted).1
      exact ⟨m', hm', hvolume.trans_le (volume_le_of_mintVerdict hlisted hverdict hcap)⟩
  | borrowed =>
      obtain ⟨events, hborrow⟩ := runOn_silently_eq_ok.mp hrun
      obtain ⟨_, m', entering, hlisted, hverdict, hm', hvolume⟩ := volume_of_borrow hborrow
      cases hm.symm.trans (listed?_eq_some.mp hlisted).1
      exact ⟨m', hm', hvolume.trans_le (volume_le_of_borrowVerdict hlisted hverdict hcap)⟩

/-- Such a dealing fails as a whole. -/
theorem atomic (hadds : dealing.Adds market kind) : dealing.operation.Atomic := by
  cases hadds with
  | minted => exact atomic_mint.silently
  | borrowed => exact atomic_borrow.silently

/-- Where nothing but the cap is in the way, the cap decides. -/
theorem runOn_fst (hadds : dealing.Adds market kind) (hm : c.markets.get? market = some listing)
    (hcap : listing.policy.cap kind ≠ 0)
    (hrun : dealing.operation.runOn (c.uncapped market) = (.ok (), c'))
    (hm' : c'.market? market = some m') (htotal : m'.volume kind = total.toNat) :
    (dealing.operation.runOn c).1 = (capVerdict kind (listing.policy.cap kind) total).demand := by
  cases hadds with
  | minted =>
      obtain ⟨events, hmint⟩ := runOn_silently_eq_ok.mp hrun
      obtain ⟨_, _, hfound, hallow, hsame, hvolume⟩ := volume_of_mint hmint
      obtain ⟨_, hlisted, rfl⟩ := exists_listed?_of_uncapped hfound
      cases hm.symm.trans (listed?_eq_some.mp hlisted).1
      cases hm'.symm.trans hsame
      have hverdict := mintVerdict_of_uncapped hlisted hallow hcap (hvolume.symm.trans htotal)
      obtain ⟨_, plan, hfound', hplan, -⟩ := mint_eq_ok hmint
      cases hfound.symm.trans hfound'
      rw [uncapped_eq hlisted] at hplan
      rw [operation, runOn_mint_fst hlisted hplan, hverdict]
      rfl
  | borrowed =>
      obtain ⟨events, hborrow⟩ := runOn_silently_eq_ok.mp hrun
      obtain ⟨_, _, _, hfound, -, hsame, hvolume⟩ := volume_of_borrow hborrow
      obtain ⟨_, hlisted, rfl⟩ := exists_listed?_of_uncapped hfound
      cases hm.symm.trans (listed?_eq_some.mp hlisted).1
      cases hm'.symm.trans hsame
      obtain ⟨entering, hallow, hgate⟩ := runOn_borrow_fst_of_uncapped hborrow
      have hverdict := borrowVerdict_of_uncapped hlisted hallow hcap (hvolume.symm.trans htotal)
      rw [hgate, hverdict]
      rfl

end Dealing.Adds

/-! ## Calls and runs -/

namespace Controller

/-- A cap on a market. -/
def HasCap (market : MarketId) (kind : CapKind) (cap : Amount) (c : Controller) : Prop :=
  ∃ listing, c.markets.get? market = some listing ∧ listing.policy.cap kind = cap

theorem HasCap.setListing {cap : Amount} {other : MarketId} (hc : c.HasCap market kind cap)
    (hsame : other = market → listing.policy.cap kind = cap) :
    (c.setListing other listing).HasCap market kind cap := by
  unfold HasCap Controller.setListing
  by_cases heq : other = market
  · rw [Registry.get?_insert, if_pos heq]
    exact ⟨listing, rfl, hsame heq⟩
  · rw [Registry.get?_insert_of_ne _ _ heq]
    exact hc

/-- The cap of a listed market is the one that is known. -/
theorem HasCap.eq {cap : Amount} (hc : c.HasCap market kind cap)
    (hlisted : c.listed? market = some listing) : listing.policy.cap kind = cap := by
  obtain ⟨_, hget, hcap⟩ := hc
  cases hget.symm.trans (listed?_eq_some.mp hlisted).1
  exact hcap

/-- A cap stands until it is set, or another market is listed under the name. -/
theorem Call.preserves_hasCap {call : Call} {cap : Amount} (hsets : call.setsCaps kind = false)
    (hlists : ∀ caller m hm, call = .listMarket caller m hm → m.id ≠ market) :
    call.Preserves (HasCap market kind cap) := by
  intro c c' hc hstep
  cases hstep with
  | performed hperforms =>
      obtain ⟨listing, state, events, hlisted, -, rfl⟩ := hperforms
      refine hc.setListing ?_
      rintro rfl
      exact (hc.eq hlisted :)
  | entered | left => exact hc
  | listed hcall => exact hc.setListing fun heq => absurd heq (hlists _ _ _ hcall)
  | delisted _ hlisted =>
      refine hc.setListing ?_
      rintro rfl
      cases kind <;> exact (hc.eq hlisted :)
  | policySet hlisted hpolicy =>
      refine hc.setListing ?_
      rintro rfl
      exact (hpolicy.cap_eq hsets).trans (hc.eq hlisted)
  | termsSet hterms =>
      unfold HasCap
      rw [hterms.markets_eq]
      exact hc

/-- A bound that is not below the cap holds until interest or fees are earned. -/
theorem VolumeLe.after {call : Call} (hc : c.VolumeLe market kind bound)
    (hm : c.markets.get? market = some listing) (hcap : listing.policy.cap kind ≠ 0)
    (hbound : (listing.policy.cap kind).toNat ≤ bound) (hearns : call.earns kind = false) :
    (c.after call).VolumeLe market kind bound := by
  -- a dealing that adds may rise, but only to the cap; nothing else rises at all
  by_cases hadds : ∃ dealing, call = .deal dealing ∧ dealing.Adds market kind
  · obtain ⟨dealing, rfl, hadds⟩ := hadds
    cases hrun : dealing.operation.runOn c with
    | mk result c' =>
        have hafter : c.after (.deal dealing) = c' := congrArg Prod.snd hrun
        rw [hafter]
        cases result with
        | error e =>
            rw [hadds.atomic _ _ _ hrun]
            exact hc
        | ok =>
            obtain ⟨m', hm', hle⟩ := hadds.volume_le_cap hm hcap hrun
            exact ⟨m', hm', hle.trans hbound⟩
  · push Not at hadds
    exact (Call.preserves_volumeLe hearns hadds (by omega)).keeps c hc

/-- So a run that neither earns nor sets the cap stays under it, or falls to it. -/
theorem VolumeLe.foldl {calls : List Call} {cap : Amount} (hc : c.VolumeLe market kind bound)
    (hcapped : c.HasCap market kind cap) (hcap : cap ≠ 0) (hbound : cap.toNat ≤ bound)
    (hcalls : ∀ call ∈ calls, call.earns kind = false ∧ call.setsCaps kind = false ∧
      ∀ caller m hm, call = .listMarket caller m hm → m.id ≠ market) :
    (calls.foldl Controller.after c).VolumeLe market kind bound := by
  induction calls generalizing c with
  | nil => exact hc
  | cons call rest ih =>
      obtain ⟨hearns, hsets, hlists⟩ := hcalls call List.mem_cons_self
      obtain ⟨listing, hm, rfl⟩ := hcapped
      exact ih (hc.after hm hcap hbound hearns)
        ((Call.preserves_hasCap hsets hlists).keeps c ⟨listing, hm, rfl⟩)
        fun call' hcall' => hcalls call' (List.mem_cons_of_mem call hcall')

/-- No call but those that earn interest or fees takes what a cap bounds past
the cap, or further past it. A dealing that adds to it, and would go through
without the caps, goes through up to the cap, and is refused where the total it
comes to is above. -/
theorem volume_capped (hm : c.markets.get? market = some listing)
    (hcap : listing.policy.cap kind ≠ 0) :
    (∀ call : Call, call.earns kind = false → ∃ m', (c.after call).market? market = some m' ∧
      m'.volume kind ≤ max (listing.state.volume kind) (listing.policy.cap kind).toNat) ∧
    ∀ (dealing : Dealing) (c' : Controller) (m' : Market) (total : Amount),
      dealing.Adds market kind →
      dealing.operation.runOn (c.uncapped market) = (.ok (), c') → c'.market? market = some m' →
      m'.volume kind = total.toNat →
      (dealing.operation.runOn c).1 =
        if listing.policy.cap kind < total then
          .error (.rejected (.capExceeded kind (listing.policy.cap kind) total))
        else .ok () := by
  constructor
  · intro call hearns
    have hbefore : c.VolumeLe market kind
        (max (listing.state.volume kind) (listing.policy.cap kind).toNat) :=
      ⟨listing.state, congrArg (Option.map Listing.state) hm, Int.le_max_left _ _⟩
    exact hbefore.after hm hcap (Int.le_max_right _ _) hearns
  · intro dealing c' m' total hadds hrun hm' htotal
    rw [hadds.runOn_fst hm hcap hrun hm' htotal, demand_capVerdict]

/-- The sample with room for ten more of supply, and for two more of debts. -/
def boundedSample : Controller :=
  [.setSupplyCaps ⟨"admin"⟩ [(⟨"jUSD"⟩, .ofUInt64 1_000_000_020)],
    .setBorrowCaps ⟨"admin"⟩ [(⟨"jUSD"⟩, .ofUInt64 10)]].foldl after sample

theorem boundedSample_reachable : boundedSample.Reachable := sample_reachable.foldl _

/-- A mint lands on the cap, and a borrow is refused above its cap. -/
theorem boundedSample_volume_capped : boundedSample.Reachable ∧
    (∃ m', (boundedSample.after (.deal (.mint ⟨"bob"⟩ ⟨"jUSD"⟩ (.ofUInt64 10) 0))).market?
        ⟨"jUSD"⟩ = some m' ∧ m'.volume .supply ≤ 1_000_000_020) ∧
    ((Dealing.mint ⟨"bob"⟩ ⟨"jUSD"⟩ (.ofUInt64 10) 0).operation.runOn boundedSample).1 =
      .ok () ∧
    ((Dealing.borrow ⟨"bob"⟩ ⟨"jUSD"⟩ (.ofUInt64 3) 0 samplePrices).operation.runOn
        boundedSample).1 =
      .error (.rejected (.capExceeded .borrow (.ofUInt64 10) (.ofUInt64 11))) := by
  obtain ⟨listing, hm, hcaps, hvolume⟩ : ∃ listing,
      boundedSample.markets.get? ⟨"jUSD"⟩ = some listing ∧
        (listing.policy.supplyCap, listing.policy.borrowCap) =
          (.ofUInt64 1_000_000_020, .ofUInt64 10) ∧
        listing.state.volume .supply = 1_000_000_010 := by
    have hfigures : (boundedSample.markets.get? ⟨"jUSD"⟩).map (fun listing =>
        ((listing.policy.supplyCap, listing.policy.borrowCap), listing.state.volume .supply)) =
          some ((.ofUInt64 1_000_000_020, .ofUInt64 10), 1_000_000_010) := by
      decide +kernel
    obtain ⟨listing, hm, hfigures⟩ := Option.map_eq_some_iff.mp hfigures
    exact ⟨listing, hm, Prod.mk.inj hfigures⟩
  obtain ⟨hsupplyCap, hborrowCap⟩ := Prod.mk.inj hcaps
  -- without the caps both go through
  have hruns : ∀ (dealing : Dealing) (kind : CapKind) (total : Amount),
      (dealing.operation.runOn (boundedSample.uncapped ⟨"jUSD"⟩)).1 = .ok () →
      ((dealing.operation.runOn (boundedSample.uncapped ⟨"jUSD"⟩)).2.market? ⟨"jUSD"⟩).map
        (·.volume kind) = some (total.toNat : Int) →
      ∃ c' m', dealing.operation.runOn (boundedSample.uncapped ⟨"jUSD"⟩) = (.ok (), c') ∧
        c'.market? ⟨"jUSD"⟩ = some m' ∧ m'.volume kind = total.toNat := by
    intro dealing kind total hok hvolume
    obtain ⟨m', hm', hvolume⟩ := Option.map_eq_some_iff.mp hvolume
    exact ⟨_, m', Prod.ext hok rfl, hm', hvolume⟩
  have hsupply : listing.policy.cap .supply ≠ 0 := by
    rw [MarketPolicy.cap, hsupplyCap]
    decide
  have hborrow : listing.policy.cap .borrow ≠ 0 := by
    rw [MarketPolicy.cap, hborrowCap]
    decide
  refine ⟨boundedSample_reachable, ?_, ?_, ?_⟩
  · obtain ⟨m', hm', hle⟩ := (volume_capped hm hsupply).1
      (.deal (.mint ⟨"bob"⟩ ⟨"jUSD"⟩ (.ofUInt64 10) 0)) rfl
    refine ⟨m', hm', hle.trans ?_⟩
    rw [hvolume, MarketPolicy.cap, hsupplyCap]
    decide
  · obtain ⟨c', m', hrun, hm', htotal⟩ := hruns (.mint ⟨"bob"⟩ ⟨"jUSD"⟩ (.ofUInt64 10) 0) .supply
      (.ofUInt64 1_000_000_020) (by decide +kernel) (by decide +kernel)
    rw [(volume_capped hm hsupply).2 _ c' m' _ .minted hrun hm' htotal, MarketPolicy.cap,
      hsupplyCap]
    exact if_neg (by decide)
  · obtain ⟨c', m', hrun, hm', htotal⟩ := hruns
      (.borrow ⟨"bob"⟩ ⟨"jUSD"⟩ (.ofUInt64 3) 0 samplePrices) .borrow
      (.ofUInt64 11) (by decide +kernel) (by decide +kernel)
    rw [(volume_capped hm hborrow).2 _ c' m' _ .borrowed hrun hm' htotal, MarketPolicy.cap,
      hborrowCap]
    exact if_pos (by decide)

end Controller

end MoneyMarket
