import MoneyMarket.Proofs.Market.Ledgers

/-! # What the tokens decide

What an account holds decides whether its tokens can be redeemed, sent or
registered, and what it has registered whether they can be seized: the ledger
of registrations never stands in the way. Where it would not have room for the
tokens of a supply, there is no room for the tokens either.
-/

namespace MoneyMarket

open Market

variable {m : Market} {account minter source target : AccountId} {tokens amount : Amount}
  {now : UInt64} {ledger : CollateralLedger}

/-! ## Registrations -/

namespace Market.Orderly

theorem registered_le (hm : m.Orderly) (hledger : m.kind.ledger? = some ledger)
    (account : AccountId) :
    (ledger.tokensOf account).toNat ≤ (m.tokenBalance account).toNat := by
  rw [← collateralTokens_of_ledger?_eq_some hledger]
  exact hm.collateral account

/-- However many of the tokens that an account holds were registered, there
would not be more registered than there are. -/
theorem total_add_le_supply (hm : m.Orderly) (hledger : m.kind.ledger? = some ledger)
    {more : Nat} (account : AccountId)
    (hheld : (ledger.tokensOf account).toNat + more ≤ (m.tokenBalance account).toNat) :
    ledger.total.toNat + more ≤ m.totalSupply.toNat := by
  have hbound := (m.tokenBalance account).toNat_lt
  obtain ⟨registered, hregistered⟩ := Amount.exists_toNat_eq (hheld.trans_lt hbound)
  have htotal := ledger.tokens.total_set account registered
  have hle : (ledger.tokens.set account registered).total ≤ m.balances.total := by
    apply Balances.total_le_total
    intro other
    rw [Balances.of_set]
    split
    next heq =>
      rw [hregistered, ← heq]
      exact hheld
    next => exact hm.registered_le hledger other
  have hbalanced : ledger.total.toNat = ledger.tokens.total := (hm.kind ledger hledger).1
  have hsupply := hm.supply
  unfold CollateralLedger.tokensOf at hregistered
  omega

theorem exists_planRegister (hm : m.Orderly) (account : AccountId) :
    ∃ plan, m.planRegister account = .ok plan := by
  unfold planRegister
  cases hledger : m.kind.ledger? with
  | none => exact ⟨none, rfl⟩
  | some ledger =>
      dsimp only
      have hle := hm.registered_le hledger account
      have htotal := hm.total_add_le_supply hledger account (Nat.add_sub_of_le hle).le
      have hbound : m.totalSupply.toNat < 2 ^ 256 := m.totalSupply.toNat_lt
      obtain ⟨plan, hplan⟩ : ∃ plan, ledger.register ledger.unchanged account
          ((m.tokenBalance account).excess (ledger.tokensOf account)) = .ok plan := by
        apply CollateralLedger.Draft.unchanged.exists_register (hm.kind ledger hledger).1
        change ledger.total.toNat + _ < _
        rw [Amount.toNat_excess]
        omega
      rw [hplan]
      exact ⟨_, rfl⟩

theorem exists_mintCollateral (hm : m.Orderly) {isMember : Bool}
    (hfits : m.totalSupply.toNat + tokens.toNat < 2 ^ 256) :
    ∃ plan, m.mintCollateral minter tokens isMember = .ok plan := by
  unfold mintCollateral
  cases hledger : m.kind.ledger? with
  | none => exact ⟨none, rfl⟩
  | some ledger =>
      dsimp only
      split
      · have hle := hm.registered_le hledger minter
        have htotal := hm.total_add_le_supply hledger minter (Nat.add_sub_of_le hle).le
        obtain ⟨plan, hplan⟩ : ∃ plan, ledger.register ledger.unchanged minter tokens =
            .ok plan := by
          apply CollateralLedger.Draft.unchanged.exists_register (hm.kind ledger hledger).1
          change ledger.total.toNat + _ < _
          omega
        rw [hplan]
        exact ⟨_, rfl⟩
      · exact ⟨none, rfl⟩

/-- What has to leave the registrations is registered. -/
theorem exists_release (hm : m.Orderly) (hledger : m.kind.ledger? = some ledger)
    (hheld : tokens.toNat ≤ (m.tokenBalance account).toNat) :
    ∃ plan, ledger.release ledger.unchanged account
      (tokens.excess ((m.tokenBalance account).excess (ledger.tokensOf account))) = .ok plan := by
  have hle := hm.registered_le hledger account
  apply CollateralLedger.Draft.unchanged.exists_release (hm.kind ledger hledger).1
  rw [CollateralLedger.planned_unchanged, Amount.toNat_excess, Amount.toNat_excess]
  omega

theorem exists_releaseCollateral (hm : m.Orderly)
    (hheld : tokens.toNat ≤ (m.tokenBalance account).toNat) :
    ∃ released, m.releaseCollateral account tokens = .ok released := by
  unfold releaseCollateral
  cases hledger : m.kind.ledger? with
  | none => exact ⟨_, rfl⟩
  | some ledger =>
      obtain ⟨plan, hplan⟩ := hm.exists_release hledger hheld
      simp only [hplan]
      exact ⟨_, rfl⟩

theorem exists_transferCollateral (hm : m.Orderly) (target : AccountId) (targetIsMember : Bool)
    (hheld : tokens.toNat ≤ (m.tokenBalance source).toNat) :
    ∃ released, m.transferCollateral source target tokens targetIsMember = .ok released := by
  unfold transferCollateral
  cases hledger : m.kind.ledger? with
  | none => exact ⟨_, rfl⟩
  | some ledger =>
      obtain ⟨plan, hplan⟩ := hm.exists_release hledger hheld
      have htotal := (CollateralLedger.release_eq_ok hplan).2.1
      have hbound : ledger.total.toNat < 2 ^ 256 := ledger.total.toNat_lt
      simp only [hplan, bind, Except.bind]
      cases targetIsMember with
      | true =>
          -- no more is registered for the target than was released
          obtain ⟨registered, hregistered⟩ : ∃ registered, ledger.register plan target
              (tokens.excess ((m.tokenBalance source).excess (ledger.tokensOf source))) =
                .ok registered := by
            have hdraft : ledger.Draft plan := .released .unchanged hplan
            apply hdraft.exists_register (hm.kind ledger hledger).1
            change ledger.total.toNat = _ at htotal
            omega
          rw [if_pos rfl, hregistered]
          exact ⟨_, rfl⟩
      | false => exact ⟨_, rfl⟩

theorem exists_seizeCollateral (hm : m.Orderly) (target : AccountId)
    (hheld : tokens.toNat ≤ (m.collateralTokens source).toNat) :
    ∃ seized, m.seizeCollateral source target tokens = .ok seized := by
  unfold seizeCollateral
  cases hledger : m.kind.ledger? with
  | none => exact ⟨_, rfl⟩
  | some ledger =>
      rw [collateralTokens_of_ledger?_eq_some hledger] at hheld
      obtain ⟨plan, hplan⟩ : ∃ plan, ledger.move ledger.unchanged source target tokens =
          .ok plan :=
        CollateralLedger.Draft.unchanged.exists_move (hm.kind ledger hledger).1 hheld
      simp only [hplan]
      exact ⟨_, rfl⟩

/-! ## Redeeming and moving tokens -/

theorem exists_tokensAfter (hheld : tokens.toNat ≤ (m.tokenBalance account).toNat) :
    ∃ rest, m.tokensAfter account tokens = .ok rest := by
  obtain ⟨rest, hrest⟩ := Amount.exists_sub hheld
  simp only [tokensAfter, guard_eq_ok, Amount.lt_def, liftM_market_eq_ok]
  exact ⟨rest, Nat.not_lt.mpr hheld, hrest⟩

/-- A redemption is only a matter of the tokens and the cash. -/
theorem exists_planRedemption (hm : m.Orderly) (hcash : amount.toNat ≤ m.cash.toNat)
    (hheld : tokens.toNat ≤ (m.tokenBalance account).toNat) :
    ∃ p, m.planRedemption account tokens amount = .ok p := by
  have hsupply : tokens.toNat ≤ m.totalSupply.toNat :=
    hheld.trans ((m.balances.of_le_total account).trans_eq hm.supply.symm)
  obtain ⟨rest, hrest⟩ := exists_tokensAfter hheld
  obtain ⟨⟨removed, plan⟩, hrelease⟩ := hm.exists_releaseCollateral hheld
  obtain ⟨cash, hcash'⟩ := Amount.exists_sub hcash
  obtain ⟨supply, hsupply'⟩ := Amount.exists_sub hsupply
  have hrequired : m.requireCash amount = .ok () := if_neg (Nat.not_lt.mpr hcash)
  simp only [planRedemption, bind_eq_ok, liftM_market_eq_ok, pure_eq_ok]
  exact ⟨_, (), hrequired, rest, hrest, _, hrelease, cash, hcash', supply, hsupply', rfl⟩

/-- Tokens that are there can be moved to any other account. -/
theorem exists_planMove (hm : m.Orderly) (hne : source ≠ target)
    (hheld : tokens.toNat ≤ (m.tokenBalance source).toNat)
    {registrations : Except MarketError (Amount × Option CollateralPlan)}
    (hregistrations : ∃ result, registrations = .ok result) :
    ∃ p, m.planMove source target tokens registrations = .ok p := by
  have hpair := m.balances.sum_of_le_total {source, target}
  rw [Finset.sum_pair hne, ← hm.supply] at hpair
  change (m.tokenBalance source).toNat + (m.tokenBalance target).toNat ≤ _ at hpair
  have hbound : m.totalSupply.toNat < 2 ^ 256 := m.totalSupply.toNat_lt
  obtain ⟨rest, hrest⟩ := exists_tokensAfter hheld
  obtain ⟨sum, hsum, -⟩ :=
    Amount.exists_add (a := m.tokenBalance target) (b := tokens) (by omega)
  obtain ⟨⟨removed, plan⟩, hok⟩ := hregistrations
  simp only [planMove, guard_eq_ok, bind_eq_ok, liftM_market_eq_ok, pure_eq_ok]
  exact ⟨_, hne, rest, hrest, sum, hsum, _, hok, rfl⟩

theorem exists_planTransfer (hm : m.Orderly) (hne : source ≠ target)
    (hheld : tokens.toNat ≤ (m.tokenBalance source).toNat) (targetIsMember : Bool) :
    ∃ p, m.planTransfer source target tokens targetIsMember = .ok p :=
  hm.exists_planMove hne hheld (hm.exists_transferCollateral target targetIsMember hheld)

theorem exists_planSeizure (hm : m.Orderly) (hne : source ≠ target)
    (hheld : tokens.toNat ≤ (m.collateralTokens source).toNat)
    (hfresh : m.accrualTimestamp = now) :
    ∃ p, m.planSeizure target source tokens now = .ok p := by
  obtain ⟨p, hp⟩ := hm.exists_planMove hne (hheld.trans (hm.collateral source))
    (hm.exists_seizeCollateral target hheld)
  exact ⟨p, planSeizure_eq_ok.mpr ⟨hfresh, hp⟩⟩

/-! ## Supplying -/

theorem mintCollateral_of_not_isMember (m : Market) (minter : AccountId) (tokens : Amount) :
    m.mintCollateral minter tokens false = .ok none := by
  unfold mintCollateral
  cases m.kind.ledger? <;> rfl

theorem mintCollateral_eq_error {isMember : Bool} {e : MarketError}
    (herror : m.mintCollateral minter tokens isMember = .error e) :
    e = .arithmetic .overflow := by
  unfold mintCollateral at herror
  split at herror
  · split at herror
    · simp only [bind_eq_error, pure_ne_error, and_false, exists_false, or_false] at herror
      exact CollateralLedger.register_eq_error herror
    · exact absurd herror pure_ne_error
  · exact absurd herror pure_ne_error

/-- Where a member cannot supply, nobody can, so registering is never why. -/
theorem planMint_eq_error_of_member (hm : m.Orderly) {e : MarketError}
    (herror : m.planMint minter amount true now = .error e) :
    m.planMint minter amount false now = .error e := by
  refine bind_eq_error_imp (fun _ _ => ?_) herror
  refine bind_eq_error_imp fun rate _ => ?_
  refine bind_eq_error_imp fun scaled _ => ?_
  refine bind_eq_error_imp fun tokens _ hrest => ?_
  simp only [bind_eq_error, pure_ne_error, and_false, exists_const, or_false,
    mintCollateral_of_not_isMember, reduceCtorEq, Except.ok.injEq, exists_eq_left', false_or]
    at hrest ⊢
  rcases hrest with hcollateral | ⟨plan, -, hfigures⟩
  · cases mintCollateral_eq_error hcollateral
    -- the tokens that could not be registered could not be issued either
    have hfull : 2 ^ 256 ≤ m.totalSupply.toNat + tokens.toNat := by
      by_contra hfits
      obtain ⟨plan, hplan⟩ := hm.exists_mintCollateral (Nat.lt_of_not_le hfits)
      cases hcollateral.symm.trans hplan
    have hsupply : m.totalSupply.add tokens = .error .overflow :=
      Amount.ofNat_eq_error.mpr ⟨hfull, rfl⟩
    cases hcash : m.cash.add amount with
    | error cause =>
        cases (Amount.ofNat_eq_error.mp hcash).2
        exact .inl (liftM_market_eq_arithmetic.mpr rfl)
    | ok cash =>
        exact .inr ⟨cash, rfl, .inl (liftM_market_eq_arithmetic.mpr hsupply)⟩
  · exact hfigures

end Market.Orderly

/-! ## Reachable markets -/

/-- The ledgers of a reachable market agree. So a redemption or a transfer of
tokens that are there does not fail for their registrations, and a seizure of
registered tokens fails only if the market is not fresh. Registering what an
account holds always succeeds, and registering what it supplies succeeds
wherever supplying does without it. -/
theorem Market.Reachable.ledgers_agree (hm : m.Reachable) :
    (m.totalSupply.toNat = m.balances.total ∧ m.balances.NoZeros ∧ m.NoZeroDebts) ∧
    (∀ ledger, m.kind = .collateralCap ledger →
      ledger.total.toNat = ledger.tokens.total ∧ ledger.tokens.NoZeros ∧
        ∀ account, ledger.tokensOf account ≤ m.tokenBalance account) ∧
    (∀ account tokens, tokens ≤ m.tokenBalance account →
      (∃ released, m.releaseCollateral account tokens = .ok released) ∧
      (∀ amount, amount ≤ m.cash → ∃ p, m.planRedemption account tokens amount = .ok p) ∧
      ∀ target, account ≠ target → ∀ targetIsMember,
        ∃ p, m.planTransfer account target tokens targetIsMember = .ok p) ∧
    (∀ liquidator borrower tokens now e, borrower ≠ liquidator →
      tokens ≤ m.collateralTokens borrower →
      m.planSeizure liquidator borrower tokens now = .error e →
      e = .notFresh m.accrualTimestamp now) ∧
    ∀ account, (∃ plan, m.planRegister account = .ok plan) ∧
      (∀ tokens isMember, m.totalSupply.toNat + tokens.toNat < 2 ^ 256 →
        ∃ plan, m.mintCollateral account tokens isMember = .ok plan) ∧
      ∀ amount now e, m.planMint account amount true now = .error e →
        m.planMint account amount false now = .error e := by
  have horderly := hm.orderly
  refine ⟨⟨horderly.supply, horderly.balances, horderly.debts⟩, ?_, ?_, ?_, ?_⟩
  · intro ledger hkind
    have hledger : m.kind.ledger? = some ledger := by rw [hkind]; rfl
    obtain ⟨hbalanced, hzeros⟩ := horderly.kind ledger hledger
    exact ⟨hbalanced, hzeros, horderly.registered_le hledger⟩
  · intro account tokens hheld
    refine ⟨horderly.exists_releaseCollateral hheld, ?_, ?_⟩
    · intro amount hcash
      exact horderly.exists_planRedemption hcash hheld
    · intro target hne targetIsMember
      exact horderly.exists_planTransfer hne hheld targetIsMember
  · intro liquidator borrower tokens now e hne hheld herror
    by_cases hfresh : m.accrualTimestamp = now
    · obtain ⟨p, hp⟩ := horderly.exists_planSeizure hne hheld hfresh
      cases herror.symm.trans hp
    · simp only [planSeizure, requireFresh, if_neg hfresh] at herror
      cases herror
      rfl
  · intro account
    refine ⟨horderly.exists_planRegister account, ?_, ?_⟩
    · intro tokens isMember hfits
      exact horderly.exists_mintCollateral hfits
    · intro amount now e herror
      exact horderly.planMint_eq_error_of_member herror

namespace Market

/-- A market with a cap that is almost reached: some tokens of one account did
not fit, and those of another were sent to it by a member. -/
def cappedSample : Market where
  id := ⟨"jUSD"⟩
  kind := .collateralCap {
    cap := .ofUInt64 150
    total := .ofUInt64 120
    tokens := Registry.ofList [(⟨"alice"⟩, .ofUInt64 70), (⟨"bob"⟩, .ofUInt64 50)] }
  rateModel := sample.rateModel
  reserveFactor := 0
  initialExchangeRate := 1
  borrowRateMax := ⟨.ofUInt64 5_000_000_000_000⟩
  flashFeeBips := 8
  cash := .ofUInt64 200
  totalBorrows := 0
  totalReserves := 0
  totalSupply := .ofUInt64 200
  borrowIndex := 1
  accrualTimestamp := 0
  balances := Registry.ofList [(⟨"alice"⟩, .ofUInt64 70), (⟨"bob"⟩, .ofUInt64 100),
    (⟨"carol"⟩, .ofUInt64 30)]
  debts := ∅

theorem cappedSample_reachable : Reachable cappedSample := by
  have hrun : (do
      let made ← Market.make cappedSample.id .collateralCap cappedSample.rateModel 1 0
      let done ← (made.withCollateralCap ⟨150, by decide⟩).run [
        .mint ⟨"alice"⟩ ⟨100, by decide⟩ true 0,
        .mint ⟨"bob"⟩ ⟨100, by decide⟩ true 0,
        .transfer ⟨"alice"⟩ ⟨"carol"⟩ ⟨30, by decide⟩ false]
      return done.1) = .ok cappedSample := by rfl
  simp only [bind_eq_ok, pure_eq_ok, Prod.exists] at hrun
  obtain ⟨made, hmake, m, events, hrun, rfl⟩ := hrun
  exact (Reachable.created (.withCollateralCap _ (.make hmake))).run hrun

/-- More than the unregistered tokens can be redeemed, and all that is
registered can be seized and nothing more. -/
theorem cappedSample_ledgers_agree :
    cappedSample.Reachable ∧ cappedSample.balances.total = 200 ∧
      (∃ p, cappedSample.planRedemption ⟨"bob"⟩ ⟨80, by decide⟩ ⟨80, by decide⟩ = .ok p) ∧
      (∀ e, cappedSample.planSeizure ⟨"carol"⟩ ⟨"bob"⟩ ⟨50, by decide⟩ 0 = .error e →
        e = .notFresh 0 0) ∧
      cappedSample.planSeizure ⟨"carol"⟩ ⟨"bob"⟩ ⟨51, by decide⟩ 0 =
        .error (.insufficientTokens ⟨"bob"⟩ ⟨50, by decide⟩ ⟨51, by decide⟩) := by
  obtain ⟨⟨hsupply, -, -⟩, -, hredeem, hseize, -⟩ := cappedSample_reachable.ledgers_agree
  exact ⟨cappedSample_reachable, hsupply.symm,
    (hredeem ⟨"bob"⟩ ⟨80, by decide⟩ (by decide)).2.1 _ (by decide),
    fun e => hseize ⟨"carol"⟩ ⟨"bob"⟩ ⟨50, by decide⟩ 0 e (by decide) (by decide), by decide⟩

end Market

end MoneyMarket
