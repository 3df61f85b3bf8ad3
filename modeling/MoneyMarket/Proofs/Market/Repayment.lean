import MoneyMarket.Proofs.Market.Coverage

/-! # Repaying everything

Asking to repay all of a debt underflows where the debt is larger than the
total of borrows. On a fresh market whose figures leave room, all borrowers
can repay everything, one after the other and in whatever order, exactly where
the total of borrows covers the debts; otherwise there is an order in which
some repayment of no more than what is owed underflows.
-/

namespace MoneyMarket

open Finset Market

variable {m m' : Market} {payer borrower : AccountId} {now : UInt64}

/-- Everything is repaid, for one borrower after the other. -/
def Market.Call.repayments (now : UInt64) (order : List (AccountId × AccountId)) : List Call :=
  order.map fun (payer, borrower) => .repay payer borrower .largest now

/-- The market is fresh, and neither a debt nor the cash after all repayments
overflows. -/
structure Market.Roomy (m : Market) (now : UInt64) : Prop where
  fresh : m.accrualTimestamp = now
  owed : ∀ account, ∃ o, m.owed account = .ok o
  cash : m.cash.toNat + m.totalBorrows.toNat < 2 ^ 256

/-! ## One repayment -/

/-- Repaying everything underflows only for a debt larger than the total. -/
theorem Market.planRepay_largest_eq_underflow
    (hplan : m.planRepay payer borrower .largest now = .error (.arithmetic .underflow)) :
    m.totalBorrows.toNat < m.debtOf borrower := by
  simp only [planRepay, if_true, bind_eq_error, liftM_market_eq_arithmetic, liftM_market_eq_ok,
    owed_ne_underflow, Amount.add_ne_underflow, Amount.sub_eq_error, pure_ne_error, false_or,
    or_false, and_false, exists_false, and_true, Nat.lt_irrefl] at hplan
  rcases hplan with hfresh | ⟨-, -, owed, howed, debt, -, hlt⟩
  · unfold requireFresh at hfresh
    split at hfresh <;> cases hfresh
  · rwa [← owed_eq_ok howed]

/-- With room, a repayment of everything fits into the total or underflows. -/
theorem Market.Roomy.planRepay_largest (hm : m.Roomy now) (payer borrower : AccountId) :
    (m.totalBorrows.toNat < m.debtOf borrower ∧
      m.planRepay payer borrower .largest now = .error (.arithmetic .underflow)) ∨
    ∃ p, m.planRepay payer borrower .largest now = .ok p ∧ p.Fits m borrower ∧ p.debt = 0 := by
  obtain ⟨owed, howed⟩ := hm.owed borrower
  have hroom := hm.cash
  have hplan : m.planRepay payer borrower .largest now = (do
      let debt ← owed.sub owed
      let totalBorrows ← m.totalBorrows.sub owed
      let cash ← m.cash.add owed
      return { payer, borrower, repayAmount := owed, debt, totalBorrows, cash }) := by
    unfold planRepay
    rw [requireFresh, if_pos hm.fresh, howed]
    rfl
  by_cases hle : owed.toNat ≤ m.totalBorrows.toNat
  · obtain ⟨totalBorrows, htotal⟩ :=
      Amount.exists_toNat_eq ((Nat.sub_le _ owed.toNat).trans_lt m.totalBorrows.toNat_lt)
    obtain ⟨cash, hcash⟩ :=
      Amount.exists_toNat_eq ((Nat.add_le_add_left hle m.cash.toNat).trans_lt hroom)
    have hok : m.planRepay payer borrower .largest now =
        .ok { payer, borrower, repayAmount := owed, debt := 0, totalBorrows, cash } := by
      simp only [hplan, bind_eq_ok, liftM_market_eq_ok, Amount.sub_eq_ok, Amount.add_eq_ok]
      exact ⟨0, rfl, totalBorrows, by omega, cash, hcash.symm, rfl⟩
    exact .inr ⟨_, hok, planRepay_fits hok, rfl⟩
  · refine .inl ⟨by rw [← owed_eq_ok howed]; omega, ?_⟩
    simp only [hplan, bind_eq_error, liftM_market_eq_arithmetic, liftM_market_eq_ok,
      Amount.sub_eq_error, Amount.sub_eq_ok]
    exact .inr ⟨0, rfl, .inl ⟨by omega, trivial⟩⟩

theorem Market.debtOf_settleRepay {p : RepayPlan} (hp : p.Fits m borrower) (hdebt : p.debt = 0)
    (account : AccountId) :
    (m.settleRepay p).1.debtOf account = if borrower = account then 0 else m.debtOf account := by
  split
  next heq =>
    have hself : (m.settleRepay p).1.debtOf p.borrower ≤ p.debt.toNat := debtOf_setDebt_self_le ..
    rw [hdebt, hp.borrower_eq, heq] at hself
    exact Nat.le_zero.mp hself
  next hne => exact m.debtOf_settleRepay_of_ne p (hp.borrower_eq ▸ hne)

/-- A repayment leaves as much room. -/
theorem Market.Roomy.settleRepay {p : RepayPlan} (hm : m.Roomy now) (hp : p.Fits m borrower)
    (hdebt : p.debt = 0) : (m.settleRepay p).1.Roomy now := by
  refine ⟨hm.fresh, ?_, ?_⟩
  · intro account
    by_cases heq : p.borrower = account
    · have hnone : ((m.settleRepay p).1.debt account).principal = 0 := by
        change (Market.debt (Market.setDebt _ p.borrower p.debt) account).principal = 0
        rw [debt_setDebt, if_pos heq, if_pos hdebt]
      exact ⟨0, by rw [Market.owed, hnone]; rfl⟩
    · obtain ⟨o, ho⟩ := hm.owed account
      have hdebt' : (m.settleRepay p).1.debt account = m.debt account := by
        change Market.debt (Market.setDebt _ p.borrower p.debt) account = _
        rw [debt_setDebt, if_neg heq]
        rfl
      exact ⟨o, by rw [← ho, Market.owed, hdebt']; rfl⟩
  · have hcash := hp.cash
    have hborrows := hp.borrows
    have hroom := hm.cash
    change p.cash.toNat + p.totalBorrows.toNat < 2 ^ 256
    omega

/-! ## Repayments in some order -/

/-- Where the total covers the debts, no repayment of everything underflows. -/
theorem Market.Covered.run_repayments_ne_underflow (hm : m.Covered) (now : UInt64)
    (order : List (AccountId × AccountId)) :
    m.run (Call.repayments now order) ≠ .error (.arithmetic .underflow) := by
  induction order generalizing m with
  | nil => exact pure_ne_error
  | cons parties rest ih =>
      intro hrun
      rcases run_cons_eq_error.mp hrun with hperform | ⟨m', events, hperform, hrest⟩
      · simp only [perform, bind_pure_comp, map_eq_error] at hperform
        have hlarger := planRepay_largest_eq_underflow hperform
        have hcovered := hm {parties.2}
        rw [sum_singleton] at hcovered
        omega
      · -- a repayment leaves the index, so the rest starts from covered debts
        have hindex : m'.borrowIndex = m.borrowIndex := by
          obtain ⟨p, -, rfl, -⟩ := perform_repay_eq_ok.mp hperform
          rfl
        exact ih (hm.change (change_of_perform hperform) hindex) hrest

/-- With room, only an underflow stops repayments. -/
theorem Market.Roomy.run_repayments (hm : m.Roomy now) (order : List (AccountId × AccountId)) :
    m.run (Call.repayments now order) = .error (.arithmetic .underflow) ∨
      ∃ m' events, m.run (Call.repayments now order) = .ok (m', events) := by
  induction order generalizing m with
  | nil => exact .inr ⟨m, [], rfl⟩
  | cons parties rest ih =>
      rcases hm.planRepay_largest parties.1 parties.2 with ⟨-, herror⟩ | ⟨p, hplan, hp, hdebt⟩
      · refine .inl (run_cons_eq_error.mpr (.inl ?_))
        simp only [perform, bind_pure_comp, map_eq_error]
        exact herror
      · have hperform : m.perform (.repay parties.1 parties.2 .largest now) =
            .ok (m.settleRepay p) := perform_repay_eq_ok.mpr ⟨p, hplan, rfl, rfl⟩
        rcases ih (hm.settleRepay hp hdebt) with herror | ⟨m', events, hrest⟩
        · exact .inl (run_cons_eq_error.mpr (.inr ⟨_, _, hperform, herror⟩))
        · exact .inr ⟨m', _, run_cons_eq_ok.mpr ⟨_, _, _, hperform, hrest, rfl⟩⟩

/-- What different borrowers could all repay was covered. -/
theorem Market.sum_debtOf_le_of_run_repayments {order : List (AccountId × AccountId)}
    {events : List Event} (hm : m.Roomy now) (hdistinct : (order.map Prod.snd).Nodup)
    (hrun : m.run (Call.repayments now order) = .ok (m', events)) :
    ((order.map Prod.snd).map m.debtOf).sum ≤ m.totalBorrows.toNat := by
  induction order generalizing m events with
  | nil => exact Nat.zero_le _
  | cons parties rest ih =>
      obtain ⟨m₁, first, later, hperform, hrest, -⟩ := run_cons_eq_ok.mp hrun
      rcases hm.planRepay_largest parties.1 parties.2 with ⟨-, herror⟩ | ⟨p, hplan, hp, hdebt⟩
      · obtain ⟨p, hplan, -⟩ := perform_repay_eq_ok.mp hperform
        cases herror.symm.trans hplan
      · obtain ⟨p', hplan', rfl, -⟩ := perform_repay_eq_ok.mp hperform
        cases hplan.symm.trans hplan'
        rw [List.map_cons, List.nodup_cons] at hdistinct
        -- the debts behind are those of other borrowers, which stay as they are
        have hothers : (rest.map Prod.snd).map (m.settleRepay p).1.debtOf =
            (rest.map Prod.snd).map m.debtOf := by
          apply List.map_congr_left
          intro account haccount
          have hne : parties.2 ≠ account := fun heq => hdistinct.1 (heq ▸ haccount)
          rw [debtOf_settleRepay hp hdebt, if_neg hne]
        have hcovered := ih (hm.settleRepay hp hdebt) hdistinct.2 hrest
        rw [hothers] at hcovered
        change _ ≤ p.totalBorrows.toNat at hcovered
        have hborrows := hp.borrows
        have hwhole := hp.debt
        rw [hdebt] at hwhole
        rw [List.map_cons, List.map_cons, List.sum_cons]
        simp only [Amount.toNat_zero] at hwhole
        omega

/-- With room, debts that are not covered cannot all be repaid. -/
theorem Market.Roomy.exists_underflow_of_not_covered (hm : m.Roomy now) (hnot : ¬m.Covered) :
    ∃ order, m.run (Call.repayments now order) = .error (.arithmetic .underflow) := by
  obtain ⟨accounts, hlarger⟩ := not_forall.mp hnot
  -- the accounts that owe more than the total try to repay, each for itself
  let order := accounts.toList.map fun account => (account, account)
  have hborrowers : order.map Prod.snd = accounts.toList := by
    rw [List.map_map]
    exact List.map_id _
  rcases hm.run_repayments order with hunderflow | ⟨m', events, hrun⟩
  · exact ⟨order, hunderflow⟩
  · have hdistinct : (order.map Prod.snd).Nodup := hborrowers ▸ accounts.nodup_toList
    have hcovered := sum_debtOf_le_of_run_repayments hm hdistinct hrun
    rw [hborrowers, sum_map_toList] at hcovered
    exact absurd hcovered hlarger

/-! ## Coverage along a run -/

/-- Along a run from a market as it is set up, the debts of all accounts exceed
the total of borrows by at most one unit of the first index, grown, for each
accrual. A call that leaves the index keeps the debts covered. Covered debts
can be repaid in full without an underflow, and on a fresh market with room
exactly the covered ones can, in every order. -/
theorem Market.Created.debts_covered {m₀ : Market} {calls : List Call} {events : List Event}
    (hm₀ : Created m₀) (hrun : m₀.run calls = .ok (m, events)) :
    (∀ accounts : Finset AccountId, ∑ account ∈ accounts, m.debtOf account ≤
      m.totalBorrows.toNat +
        calls.countP Call.isAccrual * m.borrowIndex.mantissa.toNat / 10 ^ 18) ∧
    (m.Covered → ∀ call m' later, m.perform call = .ok (m', later) →
      m'.borrowIndex = m.borrowIndex → m'.Covered) ∧
    (m.Covered → ∀ now order,
      m.run (Call.repayments now order) ≠ .error (.arithmetic .underflow)) ∧
    ∀ now, m.Roomy now →
      (m.Covered ↔ ∀ order, ∃ m' later, m.run (Call.repayments now order) = .ok (m', later)) ∧
      (¬m.Covered ↔
        ∃ order, m.run (Call.repayments now order) = .error (.arithmetic .underflow)) := by
  have hfollows : m.Follows (0 + calls.countP Call.isAccrual) := hm₀.isNew.follows.run hrun
  rw [Nat.zero_add] at hfollows
  refine ⟨hfollows.sum_debtOf_le, ?_, ?_, ?_⟩
  · intro hm call m' later hperform hindex
    exact hm.change (change_of_perform hperform) hindex
  · intro hm now order
    exact hm.run_repayments_ne_underflow now order
  · intro now hroomy
    refine ⟨⟨?_, ?_⟩, ?_, ?_⟩
    · intro hm order
      rcases hroomy.run_repayments order with hunderflow | hok
      · exact absurd hunderflow (hm.run_repayments_ne_underflow now order)
      · exact hok
    · intro hall
      by_contra hnot
      obtain ⟨order, hunderflow⟩ := hroomy.exists_underflow_of_not_covered hnot
      obtain ⟨m', later, hok⟩ := hall order
      rw [hok] at hunderflow
      cases hunderflow
    · intro hnot
      exact hroomy.exists_underflow_of_not_covered hnot
    · rintro ⟨order, hunderflow⟩ hm
      exact hm.run_repayments_ne_underflow now order hunderflow

theorem Market.sample_owed (account : AccountId) :
    sample.owed account = .ok (if account = ⟨"bob"⟩ then ⟨400_400_000, by decide⟩ else 0) := by
  split
  next heq =>
    rw [heq]
    rfl
  next hne =>
    have hnone : sample.debt account = ⟨0, 0⟩ := by
      simp [debt, sample, Registry.getD, Registry.get?, Registry.ofList, Registry.insert,
        Registry.insertEntry, Registry.empty, Ne.symm hne]
    rw [owed, hnone]
    rfl

/-- The loan of the sample is covered, and can be repaid. -/
theorem Market.sample_debts_repayable :
    sample.Roomy 1000 ∧ sample.Covered ∧
      ∀ order, ∃ m later, sample.run (Call.repayments 1000 order) = .ok (m, later) := by
  have hcovered : sample.Covered := by
    intro accounts
    simp only [← owed_eq_ok (sample_owed _), apply_ite Amount.toNat, Amount.toNat_zero,
      sum_ite_eq']
    split
    · exact le_rfl
    · exact Nat.zero_le _
  have hroomy : sample.Roomy 1000 :=
    ⟨rfl, fun account => ⟨_, sample_owed account⟩, by decide⟩
  obtain ⟨m₀, events, hm₀, hrun⟩ := sample_run
  exact ⟨hroomy, hcovered, ((hm₀.debts_covered hrun).2.2.2 1000 hroomy).1.mp hcovered⟩

/-- A loan that interest was booked for three times, at times a day apart: the
borrower owes one unit more than the total of borrows, and cannot repay. -/
theorem Market.repay_all_underflows : ∃ m : Market, m.Reachable ∧ m.isFresh 259200 ∧
    m.owed ⟨"bob"⟩ = .ok ⟨500_493_387, by decide⟩ ∧
    m.totalBorrows = ⟨500_493_386, by decide⟩ ∧ ¬m.Covered ∧
    m.planRepay ⟨"bob"⟩ ⟨"bob"⟩ .largest 259200 = .error (.arithmetic .underflow) := by
  have hloan : (do
      let m₀ ← ofTerms ⟨"jUSDC"⟩ {
        version := .vanilla
        rateModel := .jumpRate ⟨.hundredths 2, .hundredths 20, .hundredths 200⟩ (.hundredths 80) 1
          YearlyRateModel.defaultSecondsPerYear
        reserveFactor := .hundredths 10
        initialExchangeRate := 1 } 0
      let done ← m₀.run [.mint ⟨"alice"⟩ ⟨1_000_000_000, by decide⟩ false 0,
        .borrow ⟨"bob"⟩ ⟨500_000_000, by decide⟩ 0, .accrue 86400, .accrue 172800, .accrue 259200]
      let owed ← done.1.owed ⟨"bob"⟩
      return (owed, done.1.totalBorrows, done.1.isFresh 259200,
        done.1.planRepay ⟨"bob"⟩ ⟨"bob"⟩ .largest 259200)) =
      .ok (⟨500_493_387, by decide⟩, ⟨500_493_386, by decide⟩, true,
        .error (.arithmetic .underflow)) := by rfl
  simp only [bind_eq_ok, liftM_market_eq_ok, pure_eq_ok, Prod.exists, Prod.mk.injEq] at hloan
  obtain ⟨m₀, hm₀, m, events, hrun, owed, howed, rfl, htotal, hfresh, hrepay⟩ := hloan
  have hnot : ¬m.Covered := by
    intro hcovered
    have hbob := hcovered {⟨"bob"⟩}
    rw [sum_singleton, ← owed_eq_ok howed, htotal] at hbob
    exact absurd hbob (by decide)
  exact ⟨m, (Reachable.created (created_of_ofTerms hm₀)).run hrun, hfresh, howed, htotal, hnot,
    hrepay⟩

end MoneyMarket
