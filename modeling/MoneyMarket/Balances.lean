import MoneyMarket.Amount
import MoneyMarket.Registry

/-! # Balances

What accounts hold. An account that holds nothing has no entry: setting a
balance to zero takes the entry away.
-/

namespace MoneyMarket

/-- The holdings of accounts. -/
abbrev Balances := Registry AccountId Amount

namespace Balances

/-- What an account holds. -/
def of (b : Balances) (account : AccountId) : Amount := b.getD account 0

/-- The balances with another holding of one account. -/
def set (b : Balances) (account : AccountId) (amount : Amount) : Balances :=
  if amount = 0 then b.erase account else b.insert account amount

theorem of_set (b : Balances) (account other : AccountId) (amount : Amount) :
    (b.set account amount).of other = if account = other then amount else b.of other := by
  unfold set of Registry.getD
  split
  next hzero =>
    rw [Registry.get?_erase]
    split
    · simp [hzero]
    · rfl
  next =>
    rw [Registry.get?_insert]
    split <;> rfl

end Balances

end MoneyMarket
