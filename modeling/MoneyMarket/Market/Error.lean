import MoneyMarket.Name
import MoneyMarket.RateModel

/-! # Market errors -/

namespace MoneyMarket

/-- Why a market refuses an operation. -/
inductive MarketError where
  | arithmetic (cause : ArithmeticError)
  | excessiveInterestRate (rate max : Wad)
  | timestampRegression (last now : UInt64)
  | notFresh (accrued now : UInt64)
  | insufficientCash (available required : Amount)
  | insufficientTokens (account : AccountId) (available required : Amount)
  | sameAccount
  | insufficientFlashloanRepay (required repaid : Amount)
  | invalidParameter (reason : String)
  | rateModel (cause : RateModelError)
  deriving DecidableEq

/-- The wording of a market error. -/
def MarketError.message : MarketError → String
  | .arithmetic cause => "arithmetic error: " ++ cause.message
  | .excessiveInterestRate rate max => s!"borrow rate {rate.text} exceeds maximum {max.text}"
  | .timestampRegression last now => s!"timestamp {now} is before last accrual at {last}"
  | .notFresh accrued now => s!"market not fresh: accrued at {accrued}, now {now}"
  | .insufficientCash available required =>
    s!"insufficient cash: available {available.text}, required {required.text}"
  | .insufficientTokens account available required =>
    "insufficient tokens for " ++ account.text ++
      s!": available {available.text}, required {required.text}"
  | .sameAccount => "source and destination accounts are the same"
  | .insufficientFlashloanRepay required repaid =>
    s!"flashloan repaid {repaid.text}, required {required.text}"
  | .invalidParameter reason => "invalid market parameter: " ++ reason
  | .rateModel cause => "invalid rate model: " ++ cause.message

instance : MonadLift (Except ArithmeticError) (Except MarketError) :=
  ⟨Except.mapError .arithmetic⟩

end MoneyMarket
