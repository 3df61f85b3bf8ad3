import MoneyMarket.Market
import MoneyMarket.Proofs.Collateral
import MoneyMarket.Proofs.Totals

/-! # Figures of a market as numbers

What a market's queries compute where they succeed, as natural numbers that
exist in any case: what belongs to the suppliers, the units of the exchange
rate, and the debt of an account. Nothing overflows here, so figures of
different markets can be compared without asking whether a query succeeds.
-/

namespace MoneyMarket

/-- A kind of market with a plan committed, if there is one. -/
def MarketKind.commit (k : MarketKind) (plan : Option CollateralPlan) : MarketKind :=
  match k, plan with
  | .collateralCap ledger, some plan => .collateralCap (ledger.commit plan)
  | k, _ => k

@[simp]
theorem MarketKind.commit_none (k : MarketKind) : k.commit none = k := by
  cases k <;> rfl

theorem MarketKind.ledger?_commit (k : MarketKind) (plan : Option CollateralPlan) :
    (k.commit plan).ledger? = k.ledger?.map fun ledger => plan.elim ledger ledger.commit := by
  cases k <;> cases plan <;> rfl

namespace Market

variable {m : Market} {account other : AccountId} {now : UInt64}

/-- The underlying that belongs to the suppliers. -/
def netAssets (m : Market) : Nat := m.cash.toNat + m.totalBorrows.toNat - m.totalReserves.toNat

/-- The units of the exchange rate. -/
def rate (m : Market) : Nat :=
  if m.totalSupply.toNat = 0 then m.initialExchangeRate.mantissa.toNat
  else m.netAssets * 10 ^ 18 / m.totalSupply.toNat

/-- The debt of an account. -/
def debtOf (m : Market) (account : AccountId) : Nat :=
  (m.debt account).principal.toNat * m.borrowIndex.mantissa.toNat /
    (m.debt account).interestIndex.mantissa.toNat

/-! ## Queries -/

theorem supplied_eq_ok {a : Amount} (ha : m.supplied = .ok a) :
    m.totalReserves.toNat ≤ m.cash.toNat + m.totalBorrows.toNat ∧ a.toNat = m.netAssets := by
  simp only [supplied, bind_eq_ok, Amount.add_eq_ok, Amount.sub_eq_ok] at ha
  obtain ⟨sum, hsum, ha⟩ := ha
  unfold netAssets
  omega

/-- What belongs to the suppliers underflows only where reserves are not backed. -/
theorem supplied_eq_underflow (hunderflow : m.supplied = .error .underflow) :
    m.cash.toNat + m.totalBorrows.toNat < m.totalReserves.toNat := by
  simp only [supplied, bind_eq_error, Amount.add_ne_underflow, false_or, Amount.sub_eq_error,
    Amount.add_eq_ok] at hunderflow
  obtain ⟨sum, hsum, hlt, -⟩ := hunderflow
  omega

theorem exchangeRate_eq_ok {r : Wad} (hr : m.exchangeRate = .ok r) :
    r.mantissa.toNat = m.rate := by
  unfold exchangeRate at hr
  unfold rate
  split at hr
  next hzero =>
    cases hr
    rw [if_pos (Amount.eq_zero_iff.mp hzero)]
  next hsupply =>
    simp only [bind_eq_ok] at hr
    obtain ⟨supplied, hsupplied, hr⟩ := hr
    rw [if_neg (fun h => hsupply (Amount.eq_zero_iff.mpr h)), Wad.ofRatio_eq_ok hr,
      (supplied_eq_ok hsupplied).2]

theorem exchangeRate_eq_underflow (hunderflow : m.exchangeRate = .error .underflow) :
    m.cash.toNat + m.totalBorrows.toNat < m.totalReserves.toNat := by
  unfold exchangeRate at hunderflow
  split at hunderflow
  · cases hunderflow
  · simp only [bind_eq_error, Wad.ofRatio_ne_underflow, and_false, exists_const, or_false]
      at hunderflow
    exact supplied_eq_underflow hunderflow

theorem avoids_supplied {e : ArithmeticError} (hoverflow : e ≠ .overflow)
    (hunderflow : e ≠ .underflow) : Avoids e m.supplied :=
  (Amount.avoids_add hoverflow).bind fun _ _ => Amount.avoids_sub hunderflow

/-- The supply that the rate divides by is not zero. -/
theorem avoids_exchangeRate {e : ArithmeticError} (hoverflow : e ≠ .overflow)
    (hunderflow : e ≠ .underflow) : Avoids e m.exchangeRate := by
  unfold exchangeRate
  split
  next => exact avoids_pure _ _
  next hsupply =>
    exact (avoids_supplied hoverflow hunderflow).bind fun _ _ =>
      Wad.avoids_ofRatio hoverflow hsupply

theorem owed_eq_ok {o : Amount} (ho : m.owed account = .ok o) : o.toNat = m.debtOf account := by
  unfold owed at ho
  dsimp only at ho
  unfold debtOf
  split at ho
  next hzero =>
    cases ho
    rw [Amount.eq_zero_iff.mp hzero, Nat.zero_mul, Nat.zero_div]
    rfl
  next =>
    simp only [bind_eq_ok, Amount.mul_eq_ok, Amount.div_eq_ok] at ho
    obtain ⟨product, hproduct, -, ho⟩ := ho
    rw [← ho, hproduct]

theorem debtOf_eq_zero (hdebt : m.hasDebt account = false) : m.debtOf account = 0 := by
  have hprincipal : (m.debt account).principal = 0 := by simpa [hasDebt] using hdebt
  simp [debtOf, hprincipal]

/-- A debt underflows never. -/
theorem owed_ne_underflow : m.owed account ≠ .error .underflow := by
  unfold owed
  dsimp only
  split
  · exact pure_ne_error
  · rw [ne_eq, bind_eq_error]
    rintro (hmul | ⟨product, -, hdiv⟩)
    · exact Amount.mul_ne_underflow hmul
    · exact Amount.div_ne_underflow hdiv

theorem underlyingOf_eq_ok {tokens a : Amount} (ha : m.underlyingOf tokens = .ok a) :
    a.toNat = m.rate * tokens.toNat / 10 ^ 18 := by
  simp only [underlyingOf, bind_eq_ok, liftM_market_eq_ok] at ha
  obtain ⟨r, hr, ha⟩ := ha
  rw [Wad.mulTruncate_eq_ok ha, exchangeRate_eq_ok hr]

theorem position_eq_ok {p : Position} (hp : m.position account = .ok p) :
    p.collateralTokens = m.collateralTokens account ∧ p.owed.toNat = m.debtOf account ∧
      p.exchangeRate.mantissa.toNat = m.rate := by
  simp only [position, bind_eq_ok, pure_eq_ok] at hp
  obtain ⟨o, ho, r, hr, rfl⟩ := hp
  exact ⟨rfl, owed_eq_ok ho, exchangeRate_eq_ok hr⟩

theorem requireFresh_eq_ok {u : Unit} :
    m.requireFresh now = .ok u ↔ m.accrualTimestamp = now := by
  unfold requireFresh
  split <;> simp [*]

theorem avoids_requireFresh {e : ArithmeticError} :
    Avoids (.arithmetic e) (m.requireFresh now) := by
  unfold requireFresh
  split
  · exact avoids_ok _ _
  · exact avoids_error (by simp)

theorem avoids_requireCash {required : Amount} {e : ArithmeticError} :
    Avoids (.arithmetic e) (m.requireCash required) := by
  unfold requireCash
  split
  · exact avoids_error (by simp)
  · exact avoids_ok _ _

theorem avoids_tokensAfter {taken : Amount} {e : ArithmeticError} (he : e ≠ .underflow) :
    Avoids (.arithmetic e) (m.tokensAfter account taken) :=
  avoids_guard (by simp) fun _ => (Amount.avoids_sub he).liftM

theorem tokensAfter_eq_ok {taken rest : Amount} (hrest : m.tokensAfter account taken = .ok rest) :
    (m.tokenBalance account).toNat = rest.toNat + taken.toNat := by
  simp only [tokensAfter, guard_eq_ok, liftM_market_eq_ok, Amount.sub_eq_ok] at hrest
  omega

/-! ## Balances, collateral and debts after a change -/

/-- Where tokens are registered those count, and elsewhere all of them. -/
theorem collateralTokens_eq (m : Market) (account : AccountId) :
    m.collateralTokens account =
      m.kind.ledger?.elim (m.tokenBalance account) fun ledger => ledger.tokensOf account := by
  unfold collateralTokens
  cases m.kind <;> rfl

theorem commitCollateral_eq (m : Market) (plan : CollateralPlan) :
    m.commitCollateral plan = { m with kind := m.kind.commit (some plan) } := by
  unfold commitCollateral
  cases hkind : m.kind <;> simp [MarketKind.commit, ← hkind]

theorem get?_setDebt (m : Market) (account other : AccountId) (principal : Amount) :
    (m.setDebt account principal).debts.get? other =
      if account = other then
        if principal = 0 then none else some ⟨principal, m.borrowIndex⟩
      else m.debts.get? other := by
  unfold setDebt
  dsimp only
  by_cases hzero : principal = 0
  · rw [if_pos hzero, if_pos hzero, Registry.get?_erase]
  · rw [if_neg hzero, if_neg hzero, Registry.get?_insert]

theorem debt_setDebt (m : Market) (account other : AccountId) (principal : Amount) :
    (m.setDebt account principal).debt other =
      if account = other then
        if principal = 0 then ⟨0, 0⟩ else ⟨principal, m.borrowIndex⟩
      else m.debt other := by
  unfold debt Registry.getD
  rw [get?_setDebt]
  split_ifs <;> rfl

theorem debtOf_setDebt_of_ne (m : Market) (principal : Amount) (hne : account ≠ other) :
    (m.setDebt account principal).debtOf other = m.debtOf other := by
  unfold debtOf
  rw [debt_setDebt, if_neg hne]
  rfl

/-- A debt that has just been written down is its principal. -/
theorem debtOf_setDebt_self (account : AccountId) (principal : Amount)
    (hindex : 0 < m.borrowIndex.mantissa.toNat) :
    (m.setDebt account principal).debtOf account = principal.toNat := by
  unfold debtOf
  rw [debt_setDebt, if_pos rfl]
  split
  next hzero => simp [hzero]
  next => exact Nat.mul_div_cancel _ hindex

/-- Without an index it is not more than that at least. -/
theorem debtOf_setDebt_self_le (m : Market) (account : AccountId) (principal : Amount) :
    (m.setDebt account principal).debtOf account ≤ principal.toNat := by
  unfold debtOf
  rw [debt_setDebt, if_pos rfl]
  split
  · simp
  · exact Nat.div_le_of_le_mul (Nat.mul_comm _ _).le

end Market

end MoneyMarket
