import MoneyMarket.Market.Error
import MoneyMarket.Vocabulary

/-! # Errors and verdicts of the controller

A gate answers whether an operation may go on. A refusal has a reason; that a
price is missing or that arithmetic fails is no answer but an error.
-/

namespace MoneyMarket

/-- The two caps on the totals of a market. -/
inductive CapKind where
  | supply
  | borrow
  deriving DecidableEq

instance : Vocabulary CapKind where
  all := [.supply, .borrow]
  word
    | .supply => "supply"
    | .borrow => "borrow"

/-- Why a gate refuses an operation. -/
inductive Rejection where
  | marketNotListed (market : MarketId)
  | mintPaused
  | borrowPaused
  | transferPaused
  | seizePaused
  | flashloanPaused
  | capExceeded (kind : CapKind) (cap newTotal : Amount)
  | insufficientLiquidity (shortfall : Amount)
  | insufficientShortfall
  | tooMuchRepay (repayAmount maxClose : Amount)
  | nonzeroBorrowBalance
  | creditAccountNotLiquidatable
  | seizeTooMuch (seizeTokens balance : Amount)
  | insufficientCash (available required : Amount)
  deriving DecidableEq

/-- The wording of a refusal. -/
def Rejection.message : Rejection → String
  | .marketNotListed market => "market " ++ market.text ++ " is not listed"
  | .mintPaused => "mint is paused"
  | .borrowPaused => "borrow is paused"
  | .transferPaused => "transfer is paused"
  | .seizePaused => "seize is paused"
  | .flashloanPaused => "flashloan is paused"
  | .capExceeded kind cap newTotal =>
    Vocabulary.word kind ++ s!" cap {cap.text} exceeded: new total {newTotal.text}"
  | .insufficientLiquidity shortfall => s!"insufficient liquidity: shortfall {shortfall.text}"
  | .insufficientShortfall => "borrower has no shortfall"
  | .tooMuchRepay repayAmount maxClose =>
    s!"repay {repayAmount.text} exceeds close limit {maxClose.text}"
  | .nonzeroBorrowBalance => "account still borrows in market"
  | .creditAccountNotLiquidatable => "credit accounts cannot be liquidated"
  | .seizeTooMuch seizeTokens balance =>
    s!"seize {seizeTokens.text} exceeds borrower collateral {balance.text}"
  | .insufficientCash available required =>
    s!"insufficient cash: available {available.text}, required {required.text}"

/-- What only the admin may do, or a guardian in the admin's place. -/
inductive Privilege where
  | listMarket
  | delistMarket
  | setCollateralFactor
  | setCreditLimit
  | setCloseFactor
  | setLiquidationIncentive
  | setSupplyCaps
  | setBorrowCaps
  | pauseMarketAction
  | pauseTransfers
  | pauseSeizing
  | setAdmin
  | setPauseGuardian
  | setSupplyCapGuardian
  | setBorrowCapGuardian
  | setReserveFactor
  | setCollateralCap
  | setInterestRateModel
  | reduceReserves
  deriving DecidableEq

/-- The wording of a privilege. -/
def Privilege.text : Privilege → String
  | .listMarket => "support market"
  | .delistMarket => "delist market"
  | .setCollateralFactor => "set collateral factor"
  | .setCreditLimit => "set credit limit"
  | .setCloseFactor => "set close factor"
  | .setLiquidationIncentive => "set liquidation incentive"
  | .setSupplyCaps => "set supply caps"
  | .setBorrowCaps => "set borrow caps"
  | .pauseMarketAction => "pause market action"
  | .pauseTransfers => "pause transfers"
  | .pauseSeizing => "pause seizing"
  | .setAdmin => "set admin"
  | .setPauseGuardian => "set pause guardian"
  | .setSupplyCapGuardian => "set supply cap guardian"
  | .setBorrowCapGuardian => "set borrow cap guardian"
  | .setReserveFactor => "set reserve factor"
  | .setCollateralCap => "set collateral cap"
  | .setInterestRateModel => "set interest rate model"
  | .reduceReserves => "reduce reserves"

/-- Why the controller fails. -/
inductive ControllerError where
  | arithmetic (cause : ArithmeticError)
  | unauthorized (caller : AccountId) (privilege : Privilege)
  | marketNotListed (market : MarketId)
  | marketAlreadyListed (market : MarketId)
  | marketNotFresh (market : MarketId) (accrued now : UInt64)
  | priceUnavailable (market : MarketId)
  | sameAccount
  | invalidCloseAmount
  | excessiveInterestRate (rate max : Wad)
  | insufficientCash (available required : Amount)
  | invalidParameter (reason : String)
  | rejected (rejection : Rejection)
  | market (market : MarketId) (cause : MarketError)
  | invariantViolation (reason : String)
  deriving DecidableEq

namespace ControllerError

/-- The wording of a controller error. -/
def message : ControllerError → String
  | .arithmetic cause => "arithmetic error: " ++ cause.message
  | .unauthorized caller privilege => caller.text ++ " is not authorized to " ++ privilege.text
  | .marketNotListed id => "market " ++ id.text ++ " is not listed"
  | .marketAlreadyListed id => "market " ++ id.text ++ " is already listed"
  | .marketNotFresh id accrued now =>
    "market " ++ id.text ++ s!" not fresh: accrued at {accrued}, now {now}"
  | .priceUnavailable id => "no price for market " ++ id.text
  | .sameAccount => "liquidator and borrower are the same account"
  | .invalidCloseAmount => "invalid close amount"
  | .excessiveInterestRate rate max => s!"borrow rate {rate.text} exceeds maximum {max.text}"
  | .insufficientCash available required =>
    s!"insufficient cash: available {available.text}, required {required.text}"
  | .invalidParameter reason => "invalid parameter: " ++ reason
  | .rejected rejection => "rejected: " ++ rejection.message
  | .market id cause => "market " ++ id.text ++ ": " ++ cause.message
  | .invariantViolation reason => "invariant violated: " ++ reason

/-- Whether the error means that the state itself is broken. -/
def isFatal : ControllerError → Bool
  | invariantViolation _ => true
  | _ => false

/-- The error of the controller for an error of one of its markets. -/
def ofMarket (market : MarketId) : MarketError → ControllerError
  | .arithmetic cause => .arithmetic cause
  | .excessiveInterestRate rate max => .excessiveInterestRate rate max
  | .notFresh accrued now => .marketNotFresh market accrued now
  | .insufficientCash available required => .insufficientCash available required
  | .sameAccount => .sameAccount
  | .invalidParameter reason => .invalidParameter reason
  | .rateModel (.arithmetic cause) => .arithmetic cause
  | cause => .market market cause

/-- A result of one of the controller's markets. -/
def within {α : Type} (market : MarketId) (result : Except MarketError α) :
    Except ControllerError α :=
  result.mapError (ofMarket market)

end ControllerError

instance : MonadLift (Except ArithmeticError) (Except ControllerError) :=
  ⟨Except.mapError .arithmetic⟩

/-- The answer of a gate. -/
inductive Verdict where
  | allow
  | reject (rejection : Rejection)
  deriving DecidableEq

/-- Fails for a refusal. -/
def Verdict.demand : Verdict → Except ControllerError Unit
  | allow => .ok ()
  | reject rejection => .error (.rejected rejection)

end MoneyMarket
