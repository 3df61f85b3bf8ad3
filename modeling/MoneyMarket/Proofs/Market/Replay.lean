import MoneyMarket.Proofs.Market.Ledgers

/-! # Books kept from events

Whoever reads the events of a market can keep books on it: the totals, what
accounts hold and owe, and what they have registered. An event is entered
knowing the books only, never the market. After every run the books that were
kept from the events are the books of the market.
-/

namespace MoneyMarket

/-- The registered tokens, where there are any. -/
def MarketKind.registered (k : MarketKind) : Balances := k.ledger?.elim ∅ CollateralLedger.tokens

/-- Registered tokens with the changes of a plan. -/
def CollateralPlan.appliedTo (p : CollateralPlan) (tokens : Balances) : Balances :=
  p.accounts.entries.foldl (fun tokens e => tokens.set e.1 e.2) tokens

/-- What the events of a market tell. -/
structure Books where
  market : MarketId
  cash : Amount
  totalBorrows : Amount
  totalReserves : Amount
  totalSupply : Amount
  borrowIndex : Wad
  reserveFactor : Wad
  balances : Balances
  debts : Registry AccountId Debt
  /-- The registered tokens, of which there are none on some kinds of markets. -/
  registered : Balances
  deriving DecidableEq

/-- The books of a market. -/
def Market.books (m : Market) : Books where
  market := m.id
  cash := m.cash
  totalBorrows := m.totalBorrows
  totalReserves := m.totalReserves
  totalSupply := m.totalSupply
  borrowIndex := m.borrowIndex
  reserveFactor := m.reserveFactor
  balances := m.balances
  debts := m.debts
  registered := m.kind.registered

namespace Books

/-- The books with another debt of an account, as of the index in them. -/
def setDebt (b : Books) (account : AccountId) (principal : Amount) : Books :=
  { b with
    debts :=
      if principal = 0 then b.debts.erase account
      else b.debts.insert account ⟨principal, b.borrowIndex⟩ }

/-- Enters an event of the market. Figures that an event does not carry are
moved by what it carries. -/
def enter (b : Books) : Event → Except ArithmeticError Books
  | .mint _ minter mintAmount mintTokens => do
      let cash ← b.cash.add mintAmount
      let totalSupply ← b.totalSupply.add mintTokens
      let balance ← (b.balances.of minter).add mintTokens
      return { b with cash, totalSupply, balances := b.balances.set minter balance }
  | .redeem _ redeemer redeemAmount redeemTokens => do
      let cash ← b.cash.sub redeemAmount
      let totalSupply ← b.totalSupply.sub redeemTokens
      let balance ← (b.balances.of redeemer).sub redeemTokens
      return { b with cash, totalSupply, balances := b.balances.set redeemer balance }
  | .borrow _ borrower borrowAmount debt totalBorrows => do
      let cash ← b.cash.sub borrowAmount
      return { b with cash, totalBorrows }.setDebt borrower debt
  | .repay _ _ borrower repayAmount debt totalBorrows => do
      let cash ← b.cash.add repayAmount
      return { b with cash, totalBorrows }.setDebt borrower debt
  | .transfer _ source target tokens => do
      let sourceTokens ← (b.balances.of source).sub tokens
      let balances := b.balances.set source sourceTokens
      let targetTokens ← (balances.of target).add tokens
      return { b with balances := balances.set target targetTokens }
  | .collateralChanged _ account collateralTokens =>
      return { b with registered := b.registered.set account collateralTokens }
  | .flashloan _ _ _ totalFee reservesFee => do
      let cash ← b.cash.add totalFee
      let totalReserves ← b.totalReserves.add reservesFee
      return { b with cash, totalReserves }
  | .reservesAdded _ _ addAmount totalReserves => do
      let cash ← b.cash.add addAmount
      return { b with cash, totalReserves }
  | .reservesReduced _ _ reduceAmount totalReserves => do
      let cash ← b.cash.sub reduceAmount
      return { b with cash, totalReserves }
  | .interestAccrued _ _ interestAccumulated borrowIndex totalBorrows => do
      let totalReserves ← b.reserveFactor.mulTruncateAdd interestAccumulated b.totalReserves
      return { b with totalBorrows, totalReserves, borrowIndex }
  | .newReserveFactor _ _ reserveFactor => return { b with reserveFactor }
  | _ => return b

/-- Takes note of an event, unless it belongs to another market. -/
def tell (b : Books) (event : Event) : Except ArithmeticError Books :=
  if event.market = some b.market then b.enter event else return b

/-- Takes note of events one after the other. -/
def replay (b : Books) (events : List Event) : Except ArithmeticError Books := events.foldlM tell b

variable {b b' b'' : Books} {event : Event} {events later : List Event}

theorem replay_cons_eq_ok (htell : b.tell event = .ok b') (hlater : b'.replay later = .ok b'') :
    b.replay (event :: later) = .ok b'' := by
  rw [replay, List.foldlM_cons, bind_eq_ok]
  exact ⟨b', htell, hlater⟩

theorem replay_append_eq_ok (hevents : b.replay events = .ok b')
    (hlater : b'.replay later = .ok b'') : b.replay (events ++ later) = .ok b'' := by
  rw [replay, List.foldlM_append, bind_eq_ok]
  exact ⟨b', hevents, hlater⟩

/-- One event that belongs to the market. -/
theorem replay_own_eq_ok (howns : event.market = some b.market) (henter : b.enter event = .ok b') :
    b.replay [event] = .ok b' := by
  refine replay_cons_eq_ok ?_ rfl
  rw [tell, if_pos howns, henter]

end Books

namespace Market

open Books

variable {m m' : Market} {plan : Option CollateralPlan} {event : Event} {now : UInt64}
  {account source target : AccountId} {amount tokens removed : Amount}

/-! ## Registrations -/

/-- The events of a plan tell what committing it registers. -/
theorem replay_collateralEvents {b : Books} (m : Market) (p : CollateralPlan)
    (howns : b.market = m.id) :
    b.replay (m.collateralEvents p) = .ok { b with registered := p.appliedTo b.registered } := by
  unfold collateralEvents CollateralPlan.appliedTo
  induction p.accounts.entries generalizing b with
  | nil => rfl
  | cons e rest ih =>
      have htell : b.tell (.collateralChanged m.id e.1 e.2) =
          .ok { b with registered := b.registered.set e.1 e.2 } :=
        if_pos (congrArg some howns.symm)
      exact replay_cons_eq_ok htell (ih howns)

theorem books_commitCollateral {ledger : CollateralLedger} (p : CollateralPlan)
    (hledger : m.kind.ledger? = some ledger) :
    (m.commitCollateral p).books =
      { m.books with registered := p.appliedTo m.books.registered } := by
  rw [commitCollateral_eq]
  unfold books MarketKind.registered
  rw [MarketKind.ledger?_commit, hledger]
  rfl

/-- There is no plan where nothing is registered. -/
def Registers (m : Market) (plan : Option CollateralPlan) : Prop :=
  m.kind.ledger? = none → plan = none

theorem replay_commitCollateral {p : CollateralPlan} (hplan : m.Registers (some p)) :
    m.books.replay (m.collateralEvents p) = .ok (m.commitCollateral p).books := by
  cases hledger : m.kind.ledger? with
  | none => cases hplan hledger
  | some ledger => rw [replay_collateralEvents m p rfl, books_commitCollateral p hledger]

/-- An operation tells what it does first, and then what its plan registers. -/
theorem replay_event_and_plan {b : Books} (hplan : m.Registers plan)
    (hevent : b.replay [event] = .ok m.books) :
    b.replay (event :: plan.elim [] m.collateralEvents) =
      .ok (plan.elim m m.commitCollateral).books := by
  cases plan with
  | none => exact hevent
  | some p => exact replay_append_eq_ok hevent (replay_commitCollateral hplan)

theorem registers_mintCollateral {isMember : Bool}
    (hplan : m.mintCollateral account tokens isMember = .ok plan) : m.Registers plan := by
  intro hnone
  simp only [mintCollateral, hnone, pure_eq_ok] at hplan
  exact hplan.symm

theorem registers_releaseCollateral
    (hplan : m.releaseCollateral account tokens = .ok (removed, plan)) : m.Registers plan := by
  intro hnone
  simp only [releaseCollateral, hnone, pure_eq_ok, Prod.mk.injEq] at hplan
  exact hplan.2.symm

theorem registers_transferCollateral {targetIsMember : Bool}
    (hplan : m.transferCollateral source target tokens targetIsMember = .ok (removed, plan)) :
    m.Registers plan := by
  intro hnone
  simp only [transferCollateral, hnone, pure_eq_ok, Prod.mk.injEq] at hplan
  exact hplan.2.symm

theorem registers_seizeCollateral
    (hplan : m.seizeCollateral source target tokens = .ok (removed, plan)) :
    m.Registers plan := by
  intro hnone
  simp only [seizeCollateral, hnone, pure_eq_ok, Prod.mk.injEq] at hplan
  exact hplan.2.symm

theorem registers_planRegister (hplan : m.planRegister account = .ok plan) :
    m.Registers plan := by
  intro hnone
  simp only [planRegister, hnone, pure_eq_ok] at hplan
  exact hplan.symm

theorem registers_planUnregister {p : CollateralPlan}
    (hplan : m.planUnregister account = .ok (some (p, tokens))) : m.Registers (some p) := by
  intro hnone
  simp only [planUnregister, hnone, pure_eq_ok] at hplan
  cases hplan

/-! ## Operations -/

theorem planMint_mintAmount {p : MintPlan} {isMember : Bool}
    (hp : m.planMint account amount isMember now = .ok p) : p.mintAmount = amount := by
  simp only [planMint, bind_eq_ok, pure_eq_ok] at hp
  obtain ⟨-, -, -, -, -, -, -, -, -, -, -, -, -, -, -, -, rfl⟩ := hp
  rfl

theorem replay_settleMint {p : MintPlan} {isMember : Bool}
    (hp : m.planMint account amount isMember now = .ok p) :
    m.books.replay (m.settleMint p).2 = .ok (m.settleMint p).1.books := by
  have hfits := planMint_fits hp
  let supplied : Market :=
    { m with cash := p.cash, totalSupply := p.totalSupply }.setBalance p.minter p.balance
  have hsettled : m.settleMint p =
      (p.collateral.elim supplied supplied.commitCollateral,
        .mint m.id p.minter p.mintAmount p.mintTokens ::
          p.collateral.elim [] supplied.collateralEvents) := by
    unfold settleMint
    cases p.collateral <;> rfl
  have hplan : m.Registers p.collateral := registers_mintCollateral hfits.collateral
  have hregisters : supplied.Registers p.collateral := hplan
  rw [hsettled]
  apply replay_event_and_plan hregisters
  apply replay_own_eq_ok rfl
  simp only [enter, bind_eq_ok, pure_eq_ok, Amount.add_eq_ok]
  refine ⟨p.cash, ?_, p.totalSupply, hfits.supply.symm, p.balance, ?_, rfl⟩
  · rw [planMint_mintAmount hp]
    exact hfits.cash.symm
  · rw [hfits.minter_eq]
    exact hfits.balance.symm

theorem replay_settleRedeem {p : RedeemPlan} (hp : p.Fits m account) :
    m.books.replay (m.settleRedeem p).2 = .ok (m.settleRedeem p).1.books := by
  let redeemed : Market :=
    { m with cash := p.cash, totalSupply := p.totalSupply }.setBalance p.redeemer p.balance
  have hsettled : m.settleRedeem p =
      (p.collateral.elim redeemed redeemed.commitCollateral,
        .redeem m.id p.redeemer p.redeemAmount p.redeemTokens ::
          p.collateral.elim [] redeemed.collateralEvents) := by
    unfold settleRedeem
    cases p.collateral <;> rfl
  have hplan : m.Registers p.collateral := registers_releaseCollateral hp.collateral
  have hregisters : redeemed.Registers p.collateral := hplan
  rw [hsettled]
  apply replay_event_and_plan hregisters
  apply replay_own_eq_ok rfl
  simp only [enter, bind_eq_ok, pure_eq_ok, Amount.sub_eq_ok]
  refine ⟨p.cash, ?_, p.totalSupply, ?_, p.balance, ?_, rfl⟩
  · exact hp.cash.trans (Nat.add_comm _ _)
  · exact hp.supply.trans (Nat.add_comm _ _)
  · rw [hp.redeemer_eq]
    exact hp.balance.trans (Nat.add_comm _ _)

theorem planBorrow_borrowAmount {p : BorrowPlan}
    (hp : m.planBorrow account amount now = .ok p) : p.borrowAmount = amount := by
  simp only [planBorrow, bind_eq_ok, pure_eq_ok] at hp
  obtain ⟨-, -, -, -, -, -, -, -, -, -, -, -, rfl⟩ := hp
  rfl

theorem replay_settleBorrow {p : BorrowPlan} (hp : m.planBorrow account amount now = .ok p) :
    m.books.replay (m.settleBorrow p).2 = .ok (m.settleBorrow p).1.books := by
  apply replay_own_eq_ok rfl
  simp only [enter, bind_eq_ok, pure_eq_ok, Amount.sub_eq_ok]
  refine ⟨p.cash, ?_, rfl⟩
  rw [planBorrow_borrowAmount hp, Nat.add_comm]
  exact (planBorrow_fits hp).cash

theorem replay_settleRepay {p : RepayPlan} (hp : p.Fits m account) :
    m.books.replay (m.settleRepay p).2 = .ok (m.settleRepay p).1.books := by
  apply replay_own_eq_ok rfl
  simp only [enter, bind_eq_ok, pure_eq_ok, Amount.add_eq_ok]
  exact ⟨p.cash, hp.cash.symm, rfl⟩

theorem planMove_tokens {p : MovePlan}
    {registrations : Except MarketError (Amount × Option CollateralPlan)}
    (hp : m.planMove source target tokens registrations = .ok p) : p.tokens = tokens := by
  simp only [planMove, guard_eq_ok, bind_eq_ok, pure_eq_ok, Prod.exists] at hp
  obtain ⟨-, -, -, -, -, -, -, -, rfl⟩ := hp
  rfl

theorem replay_settleMove {p : MovePlan} (hp : p.Fits m source target p.tokens)
    (hregisters : m.Registers p.collateral) :
    m.books.replay (m.settleMove p).2 = .ok (m.settleMove p).1.books := by
  let moved : Market := (m.setBalance p.source p.sourceTokens).setBalance p.target p.targetTokens
  have hsettled : m.settleMove p =
      (p.collateral.elim moved moved.commitCollateral,
        .transfer m.id p.source p.target p.tokens ::
          p.collateral.elim [] moved.collateralEvents) := by
    unfold settleMove
    cases p.collateral <;> rfl
  have hmoved : moved.Registers p.collateral := hregisters
  rw [hsettled]
  apply replay_event_and_plan hmoved
  apply replay_own_eq_ok rfl
  simp only [enter, bind_eq_ok, pure_eq_ok, Amount.add_eq_ok, Amount.sub_eq_ok]
  refine ⟨p.sourceTokens, ?_, p.targetTokens, ?_, rfl⟩
  · rw [hp.source_eq]
    exact hp.sourceTokens.trans (Nat.add_comm _ _)
  · -- the target is another account, so it still has what it had
    have hne : p.source ≠ p.target := by
      rw [hp.source_eq, hp.target_eq]
      exact hp.ne
    rw [Balances.of_set, if_neg hne, hp.target_eq]
    exact hp.targetTokens.symm

theorem planFlashloan_reservesFee {p : FlashloanPlan} {repaid : Amount}
    (hp : m.planFlashloan account amount repaid now = .ok p) :
    p.totalReserves.toNat = m.totalReserves.toNat + p.reservesFee.toNat := by
  simp only [planFlashloan, guard_eq_ok, bind_eq_ok, liftM_market_eq_ok, pure_eq_ok,
    Amount.add_eq_ok] at hp
  obtain ⟨-, -, -, -, -, -, -, -, -, reservesFee, -, -, -, reserves, hreserves, rfl⟩ := hp
  exact hreserves.symm

theorem replay_settleFlashloan {p : FlashloanPlan} {repaid : Amount}
    (hp : m.planFlashloan account amount repaid now = .ok p) :
    m.books.replay (m.settleFlashloan p).2 = .ok (m.settleFlashloan p).1.books := by
  apply replay_own_eq_ok rfl
  simp only [enter, bind_eq_ok, pure_eq_ok, Amount.add_eq_ok]
  exact ⟨p.cash, (planFlashloan_fits hp).cash.symm, p.totalReserves,
    (planFlashloan_reservesFee hp).symm, rfl⟩

/-- An accrual tells the interest, and the books know the share of the reserves. -/
theorem replay_accrue {told : Option Event} (haccrue : m.accrue now = .ok (m', told)) :
    m.books.replay told.toList = .ok m'.books := by
  unfold accrue at haccrue
  split at haccrue
  · cases pure_eq_ok.mp haccrue
    rfl
  · simp only [accrualAt, guard_eq_ok, bind_eq_ok, liftM_market_eq_ok, pure_eq_ok,
      Prod.mk.injEq] at haccrue
    obtain ⟨a, ⟨-, -, -, -, -, -, interest, -, -, -, reserves, hreserves, -, -, -, -, rfl⟩, rfl,
      rfl⟩ := haccrue
    apply replay_own_eq_ok rfl
    simp only [enter, bind_eq_ok, pure_eq_ok]
    exact ⟨reserves, hreserves, rfl⟩

theorem replay_addReserves (hadd : m.addReserves account amount now = .ok (m', event)) :
    m.books.replay [event] = .ok m'.books := by
  simp only [addReserves, bind_eq_ok, liftM_market_eq_ok, pure_eq_ok, Prod.mk.injEq] at hadd
  obtain ⟨-, -, cash, hcash, reserves, -, rfl, rfl⟩ := hadd
  apply replay_own_eq_ok rfl
  simp only [enter, bind_eq_ok, pure_eq_ok]
  exact ⟨cash, hcash, rfl⟩

theorem replay_reduceReserves (hreduce : m.reduceReserves account amount now = .ok (m', event)) :
    m.books.replay [event] = .ok m'.books := by
  simp only [reduceReserves, bind_eq_ok, liftM_market_eq_ok, pure_eq_ok, Prod.mk.injEq] at hreduce
  obtain ⟨-, -, -, -, reserves, -, cash, hcash, rfl, rfl⟩ := hreduce
  apply replay_own_eq_ok rfl
  simp only [enter, bind_eq_ok, pure_eq_ok]
  exact ⟨cash, hcash, rfl⟩

theorem replay_setReserveFactor {reserveFactor : Wad}
    (hset : m.setReserveFactor reserveFactor now = .ok (m', event)) :
    m.books.replay [event] = .ok m'.books := by
  simp only [setReserveFactor, bind_eq_ok, guard_eq_ok, pure_eq_ok, Prod.mk.injEq] at hset
  obtain ⟨-, -, -, rfl, rfl⟩ := hset
  exact replay_own_eq_ok rfl rfl

/-- The books do not hold the cap. -/
theorem books_setCollateralCap {cap : Amount} (hset : m.setCollateralCap cap = .ok m') :
    m'.books = m.books := by
  obtain ⟨ledger, hkind, rfl⟩ := setCollateralCap_eq_ok.mp hset
  unfold books MarketKind.registered
  rw [hkind]
  rfl

/-! ## Runs -/

/-- The events of a call tell all that it changes. -/
theorem replay_of_perform {call : Call} {events : List Event}
    (hperform : m.perform call = .ok (m', events)) : m.books.replay events = .ok m'.books := by
  cases call with
  | accrue now =>
      obtain ⟨told, haccrue, rfl⟩ := perform_accrue_eq_ok.mp hperform
      exact replay_accrue haccrue
  | mint minter amount isMember now =>
      obtain ⟨p, hp, rfl, rfl⟩ := perform_mint_eq_ok.mp hperform
      exact replay_settleMint hp
  | redeem redeemer tokens now =>
      obtain ⟨p, hp, rfl, rfl⟩ := perform_redeem_eq_ok.mp hperform
      exact replay_settleRedeem (planRedeem_fits hp)
  | redeemUnderlying redeemer amount now =>
      obtain ⟨p, hp, rfl, rfl⟩ := perform_redeemUnderlying_eq_ok.mp hperform
      exact replay_settleRedeem (planRedeemUnderlying_fits hp)
  | borrow borrower amount now =>
      obtain ⟨p, hp, rfl, rfl⟩ := perform_borrow_eq_ok.mp hperform
      exact replay_settleBorrow hp
  | repay payer borrower amount now =>
      obtain ⟨p, hp, rfl, rfl⟩ := perform_repay_eq_ok.mp hperform
      exact replay_settleRepay (planRepay_fits hp)
  | transfer source target tokens targetIsMember =>
      obtain ⟨p, hp, rfl, rfl⟩ := perform_transfer_eq_ok.mp hperform
      obtain ⟨hfits, hplan⟩ := planMove_fits hp
      rw [← planMove_tokens hp] at hfits
      exact replay_settleMove hfits (registers_transferCollateral hplan)
  | seize liquidator borrower tokens now =>
      obtain ⟨p, hp, rfl, rfl⟩ := perform_seize_eq_ok.mp hperform
      obtain ⟨-, hmove⟩ := planSeizure_eq_ok.mp hp
      obtain ⟨hfits, hplan⟩ := planMove_fits hmove
      rw [← planMove_tokens hmove] at hfits
      exact replay_settleMove hfits (registers_seizeCollateral hplan)
  | flashloan receiver amount repaid now =>
      obtain ⟨p, hp, rfl, rfl⟩ := perform_flashloan_eq_ok.mp hperform
      exact replay_settleFlashloan hp
  | register account =>
      obtain ⟨plan, hplan, rfl, rfl⟩ := perform_register_eq_ok.mp hperform
      cases plan with
      | none =>
          rw [MarketKind.commit_none]
          rfl
      | some p =>
          rw [← commitCollateral_eq]
          exact replay_commitCollateral (registers_planRegister hplan)
  | unregister account =>
      obtain ⟨plan, hplan, rfl, rfl⟩ := perform_unregister_eq_ok.mp hperform
      cases plan with
      | none =>
          rw [Option.map_none, MarketKind.commit_none]
          rfl
      | some p =>
          rw [Option.map_some, ← commitCollateral_eq]
          exact replay_commitCollateral (registers_planUnregister hplan)
  | addReserves benefactor amount now =>
      obtain ⟨event, hadd, rfl⟩ := perform_addReserves_eq_ok.mp hperform
      exact replay_addReserves hadd
  | reduceReserves admin amount now =>
      obtain ⟨event, hreduce, rfl⟩ := perform_reduceReserves_eq_ok.mp hperform
      exact replay_reduceReserves hreduce
  | setReserveFactor reserveFactor now =>
      obtain ⟨event, hset, rfl⟩ := perform_setReserveFactor_eq_ok.mp hperform
      exact replay_setReserveFactor hset
  | setRateModel rateModel now =>
      obtain ⟨hset, rfl⟩ := perform_setRateModel_eq_ok.mp hperform
      rw [setRateModel_eq_ok hset]
      rfl
  | setCollateralCap cap =>
      obtain ⟨hset, rfl⟩ := perform_setCollateralCap_eq_ok.mp hperform
      rw [books_setCollateralCap hset]
      rfl

theorem replay_of_run {calls : List Call} {events : List Event}
    (hrun : m.run calls = .ok (m', events)) : m.books.replay events = .ok m'.books := by
  induction calls generalizing m events with
  | nil =>
      cases pure_eq_ok.mp hrun
      rfl
  | cons call rest ih =>
      obtain ⟨between, first, later, hperform, hrest, rfl⟩ := run_cons_eq_ok.mp hrun
      exact replay_append_eq_ok (replay_of_perform hperform) (ih hrest)

/-- The events of a run are a complete log: books kept from them are those of
the market that the run leads to, with every total, holding, debt and
registration, and the number of registered tokens is their total in the books. -/
theorem Created.log_complete {calls : List Call} {events : List Event} (hm : Created m)
    (hrun : m.run calls = .ok (m', events)) :
    m.books.replay events = .ok m'.books ∧
      ∀ total, m'.totalCollateralTokens? = some total →
        total.toNat = m'.books.registered.total := by
  refine ⟨replay_of_run hrun, ?_⟩
  intro total htotal
  obtain ⟨ledger, hledger, rfl⟩ := Option.map_eq_some_iff.mp htotal
  have hregistered : m'.books.registered = ledger.tokens := by
    unfold books MarketKind.registered
    rw [hledger]
    rfl
  rw [hregistered]
  exact (((Reachable.created hm).run hrun).orderly.kind ledger hledger).1

/-- A run with a call of every kind. -/
def loggedCalls : List Call :=
  let alice : AccountId := ⟨"alice"⟩
  let bob : AccountId := ⟨"bob"⟩
  let carol : AccountId := ⟨"carol"⟩
  [.setReserveFactor ⟨.ofUInt64 100_000_000_000_000_000⟩ 0,
    .mint alice (.ofUInt64 1_000_000_000) true 0,
    .mint bob (.ofUInt64 500_000_000) false 0,
    .register bob,
    .borrow bob (.ofUInt64 400_000_000) 0,
    .borrow carol (.ofUInt64 300_000_000) 0,
    .accrue 1000,
    .repay alice bob .largest 1000,
    .transfer alice carol (.ofUInt64 900_000_000) true,
    .seize bob carol (.ofUInt64 100_000_000) 1000,
    .redeem carol (.ofUInt64 50_000_000) 1000,
    .redeemUnderlying bob (.ofUInt64 20_000_000) 1000,
    .flashloan carol (.ofUInt64 100_000_000) (.ofUInt64 100_080_000) 1000,
    .addReserves alice (.ofUInt64 5_000_000) 1000,
    .setRateModel sample.rateModel 1000,
    .setCollateralCap (.ofUInt64 1_600_000_000),
    .accrue 2000,
    .reduceReserves alice (.ofUInt64 3_000_000) 2000,
    .unregister bob]

theorem loggedCalls_log_complete : ∃ m₀ m events, Created m₀ ∧
    m₀.run loggedCalls = .ok (m, events) ∧ events.length = 23 ∧
    m₀.books.replay events = .ok m.books ∧ m.books.registered.total = 850_000_000 := by
  have hrun : (do
      let made ← Market.make sample.id .collateralCap sample.rateModel 1 0
      let done ← (made.withCollateralCap ⟨1_200_000_000, by decide⟩).run loggedCalls
      return (done.1.totalCollateralTokens?, done.2.length)) =
        .ok (some ⟨850_000_000, by decide⟩, 23) := by decide +kernel
  simp only [bind_eq_ok, pure_eq_ok, Prod.exists, Prod.mk.injEq] at hrun
  obtain ⟨made, hmake, m, events, hrun, htotal, hlength⟩ := hrun
  have hcreated := Created.withCollateralCap ⟨1_200_000_000, by decide⟩ (.make hmake)
  obtain ⟨hreplay, hregistered⟩ := hcreated.log_complete hrun
  exact ⟨_, m, events, hcreated, hrun, hlength, hreplay, (hregistered _ htotal).symm⟩

end Market

end MoneyMarket
