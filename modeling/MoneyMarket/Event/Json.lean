import MoneyMarket.Event

/-! # Stored events

An event is stored as a choice of its name, which holds the record of its
values by their names.
-/

namespace MoneyMarket.Event

open Json

/-- The values of an event under the names they are stored by. -/
def fields : Event → List (String × Json)
  | interestAccrued market cashPrior interestAccumulated borrowIndex totalBorrows => [
    ("market", ofName market), ("cash_prior", ofAmount cashPrior),
    ("interest_accumulated", ofAmount interestAccumulated), ("borrow_index", ofWad borrowIndex),
    ("total_borrows", ofAmount totalBorrows)]
  | mint market minter mintAmount mintTokens => [
    ("market", ofName market), ("minter", ofName minter), ("mint_amount", ofAmount mintAmount),
    ("mint_tokens", ofAmount mintTokens)]
  | redeem market redeemer redeemAmount redeemTokens => [
    ("market", ofName market), ("redeemer", ofName redeemer),
    ("redeem_amount", ofAmount redeemAmount), ("redeem_tokens", ofAmount redeemTokens)]
  | borrow market borrower borrowAmount debt totalBorrows => [
    ("market", ofName market), ("borrower", ofName borrower),
    ("borrow_amount", ofAmount borrowAmount), ("account_borrows", ofAmount debt),
    ("total_borrows", ofAmount totalBorrows)]
  | repay market payer borrower repayAmount debt totalBorrows => [
    ("market", ofName market), ("payer", ofName payer), ("borrower", ofName borrower),
    ("repay_amount", ofAmount repayAmount), ("account_borrows", ofAmount debt),
    ("total_borrows", ofAmount totalBorrows)]
  | liquidation liquidator borrower marketBorrowed repayAmount marketCollateral seizeTokens => [
    ("liquidator", ofName liquidator), ("borrower", ofName borrower),
    ("market_borrowed", ofName marketBorrowed), ("repay_amount", ofAmount repayAmount),
    ("market_collateral", ofName marketCollateral), ("seize_tokens", ofAmount seizeTokens)]
  | transfer market source target tokens => [
    ("market", ofName market), ("from", ofName source), ("to", ofName target),
    ("tokens", ofAmount tokens)]
  | collateralChanged market account collateralTokens => [
    ("market", ofName market), ("account", ofName account),
    ("collateral_tokens", ofAmount collateralTokens)]
  | flashloan market receiver amount totalFee reservesFee => [
    ("market", ofName market), ("receiver", ofName receiver), ("amount", ofAmount amount),
    ("total_fee", ofAmount totalFee), ("reserves_fee", ofAmount reservesFee)]
  | reservesAdded market benefactor addAmount totalReserves => [
    ("market", ofName market), ("benefactor", ofName benefactor),
    ("add_amount", ofAmount addAmount), ("total_reserves", ofAmount totalReserves)]
  | reservesReduced market admin reduceAmount totalReserves => [
    ("market", ofName market), ("admin", ofName admin), ("reduce_amount", ofAmount reduceAmount),
    ("total_reserves", ofAmount totalReserves)]
  | newReserveFactor market old new => [
    ("market", ofName market), ("old_reserve_factor", ofWad old),
    ("new_reserve_factor", ofWad new)]
  | marketListed market => [("market", ofName market)]
  | marketDelisted market => [("market", ofName market)]
  | marketEntered market account => [("market", ofName market), ("account", ofName account)]
  | marketExited market account => [("market", ofName market), ("account", ofName account)]
  | newCollateralFactor market old new => [
    ("market", ofName market), ("old_collateral_factor", ofWad old),
    ("new_collateral_factor", ofWad new)]
  | newCloseFactor old new => [
    ("old_close_factor", ofWad old), ("new_close_factor", ofWad new)]
  | newLiquidationIncentive old new => [
    ("old_liquidation_incentive", ofWad old),
    ("new_liquidation_incentive", ofWad new)]
  | newSupplyCap market cap => [
    ("market", ofName market), ("new_supply_cap", ofAmount cap)]
  | newBorrowCap market cap => [
    ("market", ofName market), ("new_borrow_cap", ofAmount cap)]
  | marketActionPaused market action paused => [
    ("market", ofName market), ("action", Vocabulary.toJson action), ("paused", .bool paused)]
  | actionPaused action paused => [("action", Vocabulary.toJson action), ("paused", .bool paused)]
  | creditLimitChanged account creditLimit => [
    ("account", ofName account), ("credit_limit", ofAmount creditLimit)]
  | newAdmin old new => [("old_admin", ofName old), ("new_admin", ofName new)]
  | newPauseGuardian guardian => [("new_guardian", ofOption ofName guardian)]
  | newSupplyCapGuardian guardian => [("new_guardian", ofOption ofName guardian)]
  | newBorrowCapGuardian guardian => [("new_guardian", ofOption ofName guardian)]

/-- The stored form of an event. -/
def toJson (e : Event) : Json := .obj [(e.name, .obj e.fields)]

/-- The event of a name with the given values. -/
def ofFields? (name : String) (held : Json) : Option Event := do
  let named (names : List String) : Option Record := held.record? names
  match name with
  | "AccrueInterest" =>
    let r ← named ["market", "cash_prior", "interest_accumulated", "borrow_index",
      "total_borrows"]
    return .interestAccrued (← r.required? "market" asName?) (← r.required? "cash_prior" asAmount?)
      (← r.required? "interest_accumulated" asAmount?) (← r.required? "borrow_index" asWad?)
      (← r.required? "total_borrows" asAmount?)
  | "Mint" =>
    let r ← named ["market", "minter", "mint_amount", "mint_tokens"]
    return .mint (← r.required? "market" asName?) (← r.required? "minter" asName?)
      (← r.required? "mint_amount" asAmount?) (← r.required? "mint_tokens" asAmount?)
  | "Redeem" =>
    let r ← named ["market", "redeemer", "redeem_amount", "redeem_tokens"]
    return .redeem (← r.required? "market" asName?) (← r.required? "redeemer" asName?)
      (← r.required? "redeem_amount" asAmount?) (← r.required? "redeem_tokens" asAmount?)
  | "Borrow" =>
    let r ← named ["market", "borrower", "borrow_amount", "account_borrows", "total_borrows"]
    return .borrow (← r.required? "market" asName?) (← r.required? "borrower" asName?)
      (← r.required? "borrow_amount" asAmount?) (← r.required? "account_borrows" asAmount?)
      (← r.required? "total_borrows" asAmount?)
  | "RepayBorrow" =>
    let r ← named ["market", "payer", "borrower", "repay_amount", "account_borrows",
      "total_borrows"]
    return .repay (← r.required? "market" asName?) (← r.required? "payer" asName?)
      (← r.required? "borrower" asName?) (← r.required? "repay_amount" asAmount?)
      (← r.required? "account_borrows" asAmount?) (← r.required? "total_borrows" asAmount?)
  | "LiquidateBorrow" =>
    let r ← named ["liquidator", "borrower", "market_borrowed", "repay_amount",
      "market_collateral", "seize_tokens"]
    return .liquidation (← r.required? "liquidator" asName?)
      (← r.required? "borrower" asName?) (← r.required? "market_borrowed" asName?)
      (← r.required? "repay_amount" asAmount?) (← r.required? "market_collateral" asName?)
      (← r.required? "seize_tokens" asAmount?)
  | "Transfer" =>
    let r ← named ["market", "from", "to", "tokens"]
    return .transfer (← r.required? "market" asName?) (← r.required? "from" asName?)
      (← r.required? "to" asName?) (← r.required? "tokens" asAmount?)
  | "UserCollateralChanged" =>
    let r ← named ["market", "account", "collateral_tokens"]
    return .collateralChanged (← r.required? "market" asName?)
      (← r.required? "account" asName?) (← r.required? "collateral_tokens" asAmount?)
  | "Flashloan" =>
    let r ← named ["market", "receiver", "amount", "total_fee", "reserves_fee"]
    return .flashloan (← r.required? "market" asName?) (← r.required? "receiver" asName?)
      (← r.required? "amount" asAmount?) (← r.required? "total_fee" asAmount?)
      (← r.required? "reserves_fee" asAmount?)
  | "ReservesAdded" =>
    let r ← named ["market", "benefactor", "add_amount", "total_reserves"]
    return .reservesAdded (← r.required? "market" asName?) (← r.required? "benefactor" asName?)
      (← r.required? "add_amount" asAmount?) (← r.required? "total_reserves" asAmount?)
  | "ReservesReduced" =>
    let r ← named ["market", "admin", "reduce_amount", "total_reserves"]
    return .reservesReduced (← r.required? "market" asName?) (← r.required? "admin" asName?)
      (← r.required? "reduce_amount" asAmount?) (← r.required? "total_reserves" asAmount?)
  | "NewReserveFactor" =>
    let r ← named ["market", "old_reserve_factor", "new_reserve_factor"]
    return .newReserveFactor (← r.required? "market" asName?)
      (← r.required? "old_reserve_factor" asWad?) (← r.required? "new_reserve_factor" asWad?)
  | "MarketListed" =>
    let r ← named ["market"]
    return .marketListed (← r.required? "market" asName?)
  | "MarketDelisted" =>
    let r ← named ["market"]
    return .marketDelisted (← r.required? "market" asName?)
  | "MarketEntered" =>
    let r ← named ["market", "account"]
    return .marketEntered (← r.required? "market" asName?) (← r.required? "account" asName?)
  | "MarketExited" =>
    let r ← named ["market", "account"]
    return .marketExited (← r.required? "market" asName?) (← r.required? "account" asName?)
  | "NewCollateralFactor" =>
    let r ← named ["market", "old_collateral_factor", "new_collateral_factor"]
    return .newCollateralFactor (← r.required? "market" asName?)
      (← r.required? "old_collateral_factor" asWad?)
      (← r.required? "new_collateral_factor" asWad?)
  | "NewCloseFactor" =>
    let r ← named ["old_close_factor", "new_close_factor"]
    return .newCloseFactor (← r.required? "old_close_factor" asWad?)
      (← r.required? "new_close_factor" asWad?)
  | "NewLiquidationIncentive" =>
    let r ← named ["old_liquidation_incentive", "new_liquidation_incentive"]
    return .newLiquidationIncentive (← r.required? "old_liquidation_incentive" asWad?)
      (← r.required? "new_liquidation_incentive" asWad?)
  | "NewSupplyCap" =>
    let r ← named ["market", "new_supply_cap"]
    return .newSupplyCap (← r.required? "market" asName?)
      (← r.required? "new_supply_cap" asAmount?)
  | "NewBorrowCap" =>
    let r ← named ["market", "new_borrow_cap"]
    return .newBorrowCap (← r.required? "market" asName?)
      (← r.required? "new_borrow_cap" asAmount?)
  | "MarketActionPaused" =>
    let r ← named ["market", "action", "paused"]
    return .marketActionPaused (← r.required? "market" asName?)
      (← r.required? "action" Vocabulary.ofJson?) (← r.required? "paused" asBool?)
  | "ActionPaused" =>
    let r ← named ["action", "paused"]
    return .actionPaused (← r.required? "action" Vocabulary.ofJson?)
      (← r.required? "paused" asBool?)
  | "CreditLimitChanged" =>
    let r ← named ["account", "credit_limit"]
    return .creditLimitChanged (← r.required? "account" asName?)
      (← r.required? "credit_limit" asAmount?)
  | "NewAdmin" =>
    let r ← named ["old_admin", "new_admin"]
    return .newAdmin (← r.required? "old_admin" asName?) (← r.required? "new_admin" asName?)
  | "NewPauseGuardian" =>
    let r ← named ["new_guardian"]
    return .newPauseGuardian (← r.optional? "new_guardian" asName?)
  | "NewSupplyCapGuardian" =>
    let r ← named ["new_guardian"]
    return .newSupplyCapGuardian (← r.optional? "new_guardian" asName?)
  | "NewBorrowCapGuardian" =>
    let r ← named ["new_guardian"]
    return .newBorrowCapGuardian (← r.optional? "new_guardian" asName?)
  | _ => none

/-- Reads a stored event. -/
def ofJson? (j : Json) : Option Event := do
  let (name, held) ← j.choice?
  ofFields? name (← namedOnly? held)

end MoneyMarket.Event
