import MoneyMarket.Proofs.Controller.Administration

/-! # Runs of a controller

A controller is made without markets and then changes by calls, each of which
may succeed or fail. The controllers that calls lead to are the reachable
ones. Among the calls are the dealings, which need no rights.
-/

namespace MoneyMarket

/-- What users do at one instant, with the prices of that instant. -/
inductive Dealing where
  | mint (minter : AccountId) (market : MarketId) (amount : Amount) (now : UInt64)
  | redeem (redeemer : AccountId) (market : MarketId) (tokens : Amount) (now : UInt64)
      (prices : Prices)
  | redeemUnderlying (redeemer : AccountId) (market : MarketId) (amount : Amount) (now : UInt64)
      (prices : Prices)
  | borrow (borrower : AccountId) (market : MarketId) (amount : Amount) (now : UInt64)
      (prices : Prices)
  | repay (payer borrower : AccountId) (market : MarketId) (amount : Amount) (now : UInt64)
  | transfer (source target : AccountId) (market : MarketId) (tokens : Amount) (prices : Prices)
  | flashloan (receiver : AccountId) (market : MarketId) (amount repaid : Amount) (now : UInt64)
  | enterMarket (account : AccountId) (market : MarketId)
  | enterMarkets (account : AccountId) (markets : List MarketId)
  | leaveMarket (account : AccountId) (market : MarketId) (prices : Prices)
  | liquidate (liquidator borrower : AccountId) (marketBorrowed marketCollateral : MarketId)
      (amount : Amount) (now : UInt64) (prices : Prices)
  | addReserves (benefactor : AccountId) (market : MarketId) (amount : Amount) (now : UInt64)

/-- A call of a controller. Markets are listed as they were set up. -/
inductive Controller.Call where
  | deal (dealing : Dealing)
  | accrue (market : MarketId) (now : UInt64)
  | accrueAll (now : UInt64)
  | listMarket (caller : AccountId) (market : Market) (hmarket : market.Created)
  | delistMarket (caller : AccountId) (market : MarketId)
  | setCollateralFactor (caller : AccountId) (market : MarketId) (collateralFactor : Wad)
      (prices : Prices)
  | setCreditLimit (caller account : AccountId) (creditLimit : Amount)
  | setCloseFactor (caller : AccountId) (closeFactor : Wad)
  | setLiquidationIncentive (caller : AccountId) (liquidationIncentive : Wad)
  | setSupplyCaps (caller : AccountId) (caps : List (MarketId × Amount))
  | setBorrowCaps (caller : AccountId) (caps : List (MarketId × Amount))
  | setMintPaused (caller : AccountId) (market : MarketId) (paused : Bool)
  | setBorrowPaused (caller : AccountId) (market : MarketId) (paused : Bool)
  | setFlashloanPaused (caller : AccountId) (market : MarketId) (paused : Bool)
  | setTransferPaused (caller : AccountId) (paused : Bool)
  | setSeizePaused (caller : AccountId) (paused : Bool)
  | setAdmin (caller admin : AccountId)
  | setPauseGuardian (caller : AccountId) (guardian : Option AccountId)
  | setSupplyCapGuardian (caller : AccountId) (guardian : Option AccountId)
  | setBorrowCapGuardian (caller : AccountId) (guardian : Option AccountId)
  | setReserveFactor (caller : AccountId) (market : MarketId) (reserveFactor : Wad)
      (now : UInt64)
  | setCollateralCap (caller : AccountId) (market : MarketId) (cap : Amount)
  | setInterestRateModel (caller : AccountId) (market : MarketId) (rateModel : RateModel)
      (now : UInt64)
  | reduceReserves (caller : AccountId) (market : MarketId) (amount : Amount) (now : UInt64)

namespace Operation

/-- The operation without its result. -/
def silently {α : Type} (op : Operation α) : Operation Unit := (fun _ => ()) <$> op

theorem runOn_silently_eq_ok {α : Type} {op : Operation α} {c c' : Controller} {u : Unit} :
    op.silently.runOn c = (.ok u, c') ↔ ∃ a, op.runOn c = (.ok a, c') := by
  simp only [silently, runOn_map_eq_ok, and_true]

theorem runOn_silently_snd {α : Type} (op : Operation α) (c : Controller) :
    (op.silently.runOn c).2 = (op.runOn c).2 := by
  rw [silently, map_eq_pure_bind, runOn_bind]
  cases op.runOn c with
  | mk result c' => cases result <;> rfl

theorem silently_bind {α β : Type} (x : Operation α) (f : α → Operation β) :
    (x >>= f).silently = x >>= fun a => (f a).silently :=
  map_bind ..

theorem Atomic.silently {α : Type} {op : Operation α} (hop : op.Atomic) :
    op.silently.Atomic := by
  unfold Operation.silently
  rw [map_eq_pure_bind]
  exact hop.bind_pure _

theorem Keeps.silently {α : Type} {op : Operation α} {P : Controller → Prop} (hop : op.Keeps P) :
    op.silently.Keeps P := by
  unfold Operation.silently
  rw [map_eq_pure_bind]
  exact hop.bind fun _ => (reads_pure ()).keeps

end Operation

def Dealing.operation : Dealing → Operation Unit
  | .mint minter market amount now => (Operation.mint minter market amount now).silently
  | .redeem redeemer market tokens now prices =>
      (Operation.redeem redeemer market tokens now prices).silently
  | .redeemUnderlying redeemer market amount now prices =>
      (Operation.redeemUnderlying redeemer market amount now prices).silently
  | .borrow borrower market amount now prices =>
      (Operation.borrow borrower market amount now prices).silently
  | .repay payer borrower market amount now =>
      (Operation.repay payer borrower market amount now).silently
  | .transfer source target market tokens prices =>
      (Operation.transfer source target market tokens prices).silently
  | .flashloan receiver market amount repaid now =>
      (Operation.flashloan receiver market amount repaid now).silently
  | .enterMarket account market => (Operation.enterMarket account market).silently
  | .enterMarkets account markets => (Operation.enterMarkets account markets).silently
  | .leaveMarket account market prices => (Operation.leaveMarket account market prices).silently
  | .liquidate liquidator borrower marketBorrowed marketCollateral amount now prices =>
      (Operation.liquidate liquidator borrower marketBorrowed marketCollateral amount now
        prices).silently
  | .addReserves benefactor market amount now =>
      (Operation.addReserves benefactor market amount now).silently

namespace Controller

def Call.operation : Call → Operation Unit
  | .deal dealing => dealing.operation
  | .accrue market now => (Operation.accrue market now).silently
  | .accrueAll now => (Operation.accrueAll now).silently
  | .listMarket caller market _ => (Operation.listMarket caller market).silently
  | .delistMarket caller market => (Operation.delistMarket caller market).silently
  | .setCollateralFactor caller market collateralFactor prices =>
      (Operation.setCollateralFactor caller market collateralFactor prices).silently
  | .setCreditLimit caller account creditLimit =>
      (Operation.setCreditLimit caller account creditLimit).silently
  | .setCloseFactor caller closeFactor => (Operation.setCloseFactor caller closeFactor).silently
  | .setLiquidationIncentive caller liquidationIncentive =>
      (Operation.setLiquidationIncentive caller liquidationIncentive).silently
  | .setSupplyCaps caller caps => (Operation.setSupplyCaps caller caps).silently
  | .setBorrowCaps caller caps => (Operation.setBorrowCaps caller caps).silently
  | .setMintPaused caller market paused =>
      (Operation.setMintPaused caller market paused).silently
  | .setBorrowPaused caller market paused =>
      (Operation.setBorrowPaused caller market paused).silently
  | .setFlashloanPaused caller market paused =>
      (Operation.setFlashloanPaused caller market paused).silently
  | .setTransferPaused caller paused => (Operation.setTransferPaused caller paused).silently
  | .setSeizePaused caller paused => (Operation.setSeizePaused caller paused).silently
  | .setAdmin caller admin => (Operation.setAdmin caller admin).silently
  | .setPauseGuardian caller guardian => (Operation.setPauseGuardian caller guardian).silently
  | .setSupplyCapGuardian caller guardian =>
      (Operation.setSupplyCapGuardian caller guardian).silently
  | .setBorrowCapGuardian caller guardian =>
      (Operation.setBorrowCapGuardian caller guardian).silently
  | .setReserveFactor caller market reserveFactor now =>
      (Operation.setReserveFactor caller market reserveFactor now).silently
  | .setCollateralCap caller market cap =>
      (Operation.setCollateralCap caller market cap).silently
  | .setInterestRateModel caller market rateModel now =>
      (Operation.setInterestRateModel caller market rateModel now).silently
  | .reduceReserves caller market amount now =>
      (Operation.reduceReserves caller market amount now).silently

/-- The controller after a call, which may have failed. -/
def after (c : Controller) (call : Call) : Controller := (call.operation.runOn c).2

theorem runOn_eq_after {c : Controller} {dealing : Dealing}
    (hok : (dealing.operation.runOn c).1 = .ok ()) :
    dealing.operation.runOn c = (.ok (), c.after (.deal dealing)) :=
  Prod.ext hok rfl

/-- Controllers that calls lead to. -/
inductive Reachable : Controller → Prop
  | made {c : Controller} {admin : AccountId} {settings : ControllerSettings}
      (hmake : make admin settings = .ok c) : Reachable c
  | called {c : Controller} (call : Call) (hc : Reachable c) : Reachable (c.after call)

theorem Reachable.foldl {c : Controller} (hc : c.Reachable) (calls : List Call) :
    (calls.foldl after c).Reachable := by
  induction calls generalizing c with
  | nil => exact hc
  | cons call rest ih => exact ih (hc.called call)

/-- The reachable controllers are the ends of runs from controllers as they are made. -/
theorem reachable_iff_foldl {c : Controller} : c.Reachable ↔
    ∃ admin settings made, ∃ calls : List Call,
      make admin settings = .ok made ∧ calls.foldl after made = c := by
  constructor
  · intro hc
    induction hc with
    | @made c admin settings hmake => exact ⟨admin, settings, c, [], hmake, rfl⟩
    | called call _ ih =>
        obtain ⟨admin, settings, made, calls, hmake, rfl⟩ := ih
        exact ⟨admin, settings, made, calls ++ [call], hmake, List.foldl_append⟩
  · rintro ⟨admin, settings, made, calls, hmake, rfl⟩
    exact (Reachable.made hmake).foldl calls

/-! ## A sample -/

/-- A new market that registers collateral. -/
def sampleMarket : Market where
  id := ⟨"jUSD"⟩
  kind := .collateralCap (.empty 0)
  rateModel := Market.sample.rateModel
  reserveFactor := 0
  initialExchangeRate := 1
  borrowRateMax := ⟨.ofUInt64 5_000_000_000_000⟩
  flashFeeBips := 8
  cash := 0
  totalBorrows := 0
  totalReserves := 0
  totalSupply := 0
  borrowIndex := 1
  accrualTimestamp := 0
  balances := ∅
  debts := ∅

theorem sampleMarket_created : sampleMarket.Created := by
  have hmake : Market.make ⟨"jUSD"⟩ .collateralCap Market.sample.rateModel 1 0 =
      .ok sampleMarket := by rfl
  exact .make hmake

/-- The underlying of the market at a price of one. -/
def samplePrices : Prices := Prices.empty.insert ⟨⟨"jUSD"⟩, 1, .ofSeconds 0, "feed"⟩

/-- A controller with default settings. -/
def sampleMade : Controller where
  admin := ⟨"admin"⟩
  pauseGuardian := none
  supplyCapGuardian := none
  borrowCapGuardian := none
  closeFactor := ⟨⟨500_000_000_000_000_000, by decide⟩⟩
  liquidationIncentive := ⟨⟨1_080_000_000_000_000_000, by decide⟩⟩
  maxCollateralFactor := ⟨⟨900_000_000_000_000_000, by decide⟩⟩
  transferPaused := false
  seizePaused := false
  markets := ∅
  memberships := ∅
  creditLimits := ∅

theorem make_sampleMade : make ⟨"admin"⟩ {} = .ok sampleMade := by rfl

/-- A large supplier, and a small one who borrows all that its collateral allows. -/
def sample : Controller :=
  [.listMarket ⟨"admin"⟩ sampleMarket sampleMarket_created,
    .setCollateralFactor ⟨"admin"⟩ ⟨"jUSD"⟩ ⟨.ofUInt64 800_000_000_000_000_000⟩ samplePrices,
    .deal (.mint ⟨"bob"⟩ ⟨"jUSD"⟩ (.ofUInt64 1_000_000_000) 0),
    .deal (.enterMarket ⟨"bob"⟩ ⟨"jUSD"⟩),
    .deal (.mint ⟨"alice"⟩ ⟨"jUSD"⟩ (.ofUInt64 10) 0),
    .deal (.enterMarket ⟨"alice"⟩ ⟨"jUSD"⟩),
    .deal (.borrow ⟨"alice"⟩ ⟨"jUSD"⟩ (.ofUInt64 8) 0 samplePrices)].foldl after sampleMade

theorem sample_reachable : sample.Reachable := (Reachable.made make_sampleMade).foldl _

end Controller

end MoneyMarket
