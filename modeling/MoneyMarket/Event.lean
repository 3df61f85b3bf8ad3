import MoneyMarket.Vocabulary

/-! # Events

Every change of a market or of the controller is told by an event. The events
of a run are a complete log: they carry the values that the change arrived at.
-/

namespace MoneyMarket

/-- What can be paused. -/
inductive Action where
  | mint
  | borrow
  | flashloan
  | transfer
  | seize
  deriving DecidableEq

instance : Vocabulary Action where
  all := [.mint, .borrow, .flashloan, .transfer, .seize]
  word
    | .mint => "Mint"
    | .borrow => "Borrow"
    | .flashloan => "Flashloan"
    | .transfer => "Transfer"
    | .seize => "Seize"

/-- What happened to a market or to the controller. -/
inductive Event where
  /-- Interest was booked on a market. -/
  | interestAccrued (market : MarketId) (cashPrior interestAccumulated : Amount)
      (borrowIndex : Wad) (totalBorrows : Amount)
  /-- Underlying was supplied for market tokens. -/
  | mint (market : MarketId) (minter : AccountId) (mintAmount mintTokens : Amount)
  /-- Market tokens were burned for underlying. -/
  | redeem (market : MarketId) (redeemer : AccountId) (redeemAmount redeemTokens : Amount)
  | borrow (market : MarketId) (borrower : AccountId)
      (borrowAmount debt totalBorrows : Amount)
  | repay (market : MarketId) (payer borrower : AccountId)
      (repayAmount debt totalBorrows : Amount)
  /-- An account in shortfall was liquidated. -/
  | liquidation (liquidator borrower : AccountId) (marketBorrowed : MarketId)
      (repayAmount : Amount) (marketCollateral : MarketId) (seizeTokens : Amount)
  /-- Market tokens moved between accounts. -/
  | transfer (market : MarketId) (source target : AccountId) (tokens : Amount)
  /-- The registered tokens of an account changed. -/
  | collateralChanged (market : MarketId) (account : AccountId) (collateralTokens : Amount)
  | flashloan (market : MarketId) (receiver : AccountId) (amount totalFee reservesFee : Amount)
  | reservesAdded (market : MarketId) (benefactor : AccountId) (addAmount totalReserves : Amount)
  | reservesReduced (market : MarketId) (admin : AccountId) (reduceAmount totalReserves : Amount)
  | newReserveFactor (market : MarketId) (old new : Wad)
  | marketListed (market : MarketId)
  | marketDelisted (market : MarketId)
  | marketEntered (market : MarketId) (account : AccountId)
  | marketExited (market : MarketId) (account : AccountId)
  | newCollateralFactor (market : MarketId) (old new : Wad)
  | newCloseFactor (old new : Wad)
  | newLiquidationIncentive (old new : Wad)
  | newSupplyCap (market : MarketId) (cap : Amount)
  | newBorrowCap (market : MarketId) (cap : Amount)
  /-- An action was paused or resumed on one market. -/
  | marketActionPaused (market : MarketId) (action : Action) (paused : Bool)
  /-- An action was paused or resumed everywhere. -/
  | actionPaused (action : Action) (paused : Bool)
  | creditLimitChanged (account : AccountId) (creditLimit : Amount)
  | newAdmin (old new : AccountId)
  | newPauseGuardian (guardian : Option AccountId)
  | newSupplyCapGuardian (guardian : Option AccountId)
  | newBorrowCapGuardian (guardian : Option AccountId)
  deriving DecidableEq

namespace Event

/-- The market an event belongs to; a liquidation belongs to the market of
the debt. -/
def market : Event → Option MarketId
  | interestAccrued m .. => some m
  | mint m .. => some m
  | redeem m .. => some m
  | borrow m .. => some m
  | repay m .. => some m
  | liquidation _ _ m .. => some m
  | transfer m .. => some m
  | collateralChanged m .. => some m
  | flashloan m .. => some m
  | reservesAdded m .. => some m
  | reservesReduced m .. => some m
  | newReserveFactor m .. => some m
  | marketListed m => some m
  | marketDelisted m => some m
  | marketEntered m _ => some m
  | marketExited m _ => some m
  | newCollateralFactor m .. => some m
  | newCloseFactor .. => none
  | newLiquidationIncentive .. => none
  | newSupplyCap m _ => some m
  | newBorrowCap m _ => some m
  | marketActionPaused m .. => some m
  | actionPaused .. => none
  | creditLimitChanged .. => none
  | newAdmin .. => none
  | newPauseGuardian _ => none
  | newSupplyCapGuardian _ => none
  | newBorrowCapGuardian _ => none

/-- The name of an event, as logs show it. -/
def name : Event → String
  | interestAccrued .. => "AccrueInterest"
  | mint .. => "Mint"
  | redeem .. => "Redeem"
  | borrow .. => "Borrow"
  | repay .. => "RepayBorrow"
  | liquidation .. => "LiquidateBorrow"
  | transfer .. => "Transfer"
  | collateralChanged .. => "UserCollateralChanged"
  | flashloan .. => "Flashloan"
  | reservesAdded .. => "ReservesAdded"
  | reservesReduced .. => "ReservesReduced"
  | newReserveFactor .. => "NewReserveFactor"
  | marketListed _ => "MarketListed"
  | marketDelisted _ => "MarketDelisted"
  | marketEntered .. => "MarketEntered"
  | marketExited .. => "MarketExited"
  | newCollateralFactor .. => "NewCollateralFactor"
  | newCloseFactor .. => "NewCloseFactor"
  | newLiquidationIncentive .. => "NewLiquidationIncentive"
  | newSupplyCap .. => "NewSupplyCap"
  | newBorrowCap .. => "NewBorrowCap"
  | marketActionPaused .. => "MarketActionPaused"
  | actionPaused .. => "ActionPaused"
  | creditLimitChanged .. => "CreditLimitChanged"
  | newAdmin .. => "NewAdmin"
  | newPauseGuardian _ => "NewPauseGuardian"
  | newSupplyCapGuardian _ => "NewSupplyCapGuardian"
  | newBorrowCapGuardian _ => "NewBorrowCapGuardian"

end Event

end MoneyMarket
