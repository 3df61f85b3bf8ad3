import Mathlib.Algebra.Order.Floor.Div
import MoneyMarket.Proofs.Market.Availability
import MoneyMarket.Proofs.Market.RoundTrips

/-! # The least tokens for an amount

A redemption of underlying burns the least number of tokens that is worth the
amount: dividing by the exchange rate is rounded up. Tokens in turn are
worth their product with the rate, rounded down. Rounding up and rounding down
are adjoint, so redeeming the burned tokens themselves pays the amount or more,
and redeeming fewer tokens pays less. None of this asks anything of the market
or of its rate.
-/

namespace MoneyMarket

/-- A quotient that a remainder raises by one is the quotient rounded up. -/
theorem ceilDiv_eq_ite (n : Nat) {d : Nat} (hd : 0 < d) :
    n ⌈/⌉ d = if n % d = 0 then n / d else n / d + 1 := by
  have hmod := Nat.mod_lt n hd
  apply le_antisymm
  · rw [ceilDiv_le_iff_le_mul hd]
    have hdivision := Nat.div_add_mod n d
    split
    · omega
    · rw [Nat.mul_add, Nat.mul_one]
      omega
  · split
    · exact Nat.div_le_of_le_mul ((ceilDiv_le_iff_le_mul hd).mp le_rfl)
    · -- the quotient alone is not enough
      rw [Nat.succ_le_iff, ← not_le, ceilDiv_le_iff_le_mul hd, not_le]
      have hdivision := Nat.div_add_mod n d
      omega

theorem Wad.exists_mulTruncate {w : Wad} {n : Amount}
    (hfits : w.mantissa.toNat * n.toNat < 2 ^ 256) : ∃ a, w.mulTruncate n = .ok a := by
  obtain ⟨product, hproduct⟩ := Wad.exists_toNat_eq hfits
  exact ⟨product.truncate, bind_eq_ok.mpr ⟨product, mulAmount_eq_ok.mpr hproduct.symm, rfl⟩⟩

/-- Where registered tokens can be released, fewer can. -/
theorem CollateralLedger.exists_release_of_le {l : CollateralLedger} {p p' : CollateralPlan}
    {account : AccountId} {tokens fewer : Amount} (hle : fewer ≤ tokens)
    (hrelease : l.release p account tokens = .ok p') :
    ∃ p'', l.release p account fewer = .ok p'' := by
  obtain ⟨hheld, htotal, -⟩ := release_eq_ok hrelease
  rw [Amount.le_def] at hle
  have hheld' : fewer.toNat ≤ (l.planned p account).toNat := hle.trans hheld
  obtain ⟨rest, hrest⟩ := Amount.exists_sub hheld'
  obtain ⟨total, htotal'⟩ : ∃ total, p.total.sub fewer = .ok total :=
    Amount.exists_sub (by omega)
  unfold release
  split
  · exact ⟨p, rfl⟩
  · simp only [guard_eq_ok, Amount.lt_def, bind_eq_ok, liftM_market_eq_ok, pure_eq_ok]
    exact ⟨_, Nat.not_lt.mpr hheld', rest, hrest, total, htotal', rfl⟩

namespace Market

variable {m : Market} {redeemer : AccountId} {now : UInt64} {amount tokens fewer : Amount}
  {p : RedeemPlan}

/-! ## Redeeming fewer tokens -/

theorem exists_releaseCollateral_of_le {released : Amount × Option CollateralPlan}
    (hle : fewer ≤ tokens) (hrelease : m.releaseCollateral redeemer tokens = .ok released) :
    ∃ released', m.releaseCollateral redeemer fewer = .ok released' := by
  unfold releaseCollateral at hrelease ⊢
  cases hledger : m.kind.ledger? with
  | none => exact ⟨_, rfl⟩
  | some ledger =>
      simp only [hledger, bind_eq_ok] at hrelease
      obtain ⟨plan, hplan, -⟩ := hrelease
      have hremoved : fewer.excess ((m.tokenBalance redeemer).excess (ledger.tokensOf redeemer)) ≤
          tokens.excess ((m.tokenBalance redeemer).excess (ledger.tokensOf redeemer)) :=
        Nat.sub_le_sub_right hle _
      obtain ⟨plan', hplan'⟩ := CollateralLedger.exists_release_of_le hremoved hplan
      simp only [hplan']
      exact ⟨_, rfl⟩

/-- A redemption of tokens allows any of fewer tokens that there is cash for. -/
theorem exists_planRedemption_of_le {payout : Amount} (hle : fewer ≤ tokens)
    (hcash : payout ≤ m.cash) (hp : m.planRedemption redeemer tokens amount = .ok p) :
    ∃ q, m.planRedemption redeemer fewer payout = .ok q := by
  simp only [planRedemption, bind_eq_ok, liftM_market_eq_ok, pure_eq_ok, Prod.exists,
    Amount.sub_eq_ok] at hp
  obtain ⟨-, -, balance, hbalance, removed, plan, hrelease, -, -, supply, hsupply, -⟩ := hp
  have hheld := tokensAfter_eq_ok hbalance
  rw [Amount.le_def] at hle
  obtain ⟨rest, hrest⟩ : ∃ rest, m.tokensAfter redeemer fewer = .ok rest :=
    Orderly.exists_tokensAfter (by omega)
  obtain ⟨released, hreleased⟩ := exists_releaseCollateral_of_le hle hrelease
  obtain ⟨cash, hcash'⟩ := Amount.exists_sub hcash
  obtain ⟨left, hleft⟩ : ∃ left, m.totalSupply.sub fewer = .ok left :=
    Amount.exists_sub (by omega)
  have hrequired : m.requireCash payout = .ok () := if_neg (Nat.not_lt.mpr hcash)
  simp only [planRedemption, bind_eq_ok, liftM_market_eq_ok, pure_eq_ok]
  exact ⟨_, (), hrequired, rest, hrest, released, hreleased, cash, hcash', left, hleft, rfl⟩

/-! ## Redeeming for an amount -/

/-- The tokens for an amount are its quotient by the rate, rounded up. -/
theorem planRedeemUnderlying_eq_ok
    (hp : m.planRedeemUnderlying redeemer amount now = .ok p) :
    ∃ r, m.exchangeRate = .ok r ∧ m.accrualTimestamp = now ∧ 0 < r.mantissa.toNat ∧
      amount.toNat * 10 ^ 18 < 2 ^ 256 ∧
      p.redeemTokens.toNat = amount.toNat * 10 ^ 18 ⌈/⌉ r.mantissa.toNat ∧
      m.planRedemption redeemer p.redeemTokens amount = .ok p := by
  simp only [planRedeemUnderlying, bind_eq_ok, liftM_market_eq_ok, requireFresh_eq_ok,
    Amount.mul_eq_ok, Amount.div_eq_ok] at hp
  obtain ⟨-, hfresh, r, hr, scaled, hscaled, full, ⟨hrate, hfull⟩, hp⟩ := hp
  have hpos : 0 < r.mantissa.toNat := Nat.pos_of_ne_zero hrate
  have hscaled' : amount.toNat * 10 ^ 18 = scaled.toNat := hscaled
  refine ⟨r, hr, hfresh, hpos, hscaled' ▸ scaled.toNat_lt, ?_⟩
  rw [hscaled', ceilDiv_eq_ite _ hpos, hfull]
  split at hp
  next hexact =>
    simp only [bind_eq_ok, liftM_market_eq_ok, pure_eq_ok, exists_eq_left'] at hp
    rw [if_pos hexact, (planRedemption_figures hp).1]
    exact ⟨rfl, hp⟩
  next hrest =>
    simp only [bind_eq_ok, liftM_market_eq_ok, Amount.add_eq_ok, Amount.toNat_one] at hp
    obtain ⟨tokens, htokens, hp⟩ := hp
    rw [if_neg hrest, (planRedemption_figures hp).1]
    exact ⟨htokens.symm, hp⟩

/-- Tokens that cannot be paid for are not redeemed. -/
theorem planRedeem_of_cash_lt {payout : Amount} (hfresh : m.accrualTimestamp = now)
    (hpayout : m.underlyingOf tokens = .ok payout) (hcash : m.cash < payout) :
    m.planRedeem redeemer tokens now = .error (.insufficientCash m.cash payout) := by
  have hrequired : m.requireCash payout = .error (.insufficientCash m.cash payout) := if_pos hcash
  rw [planRedeem, requireFresh, if_pos hfresh, hpayout]
  change m.planRedemption redeemer tokens payout = _
  rw [planRedemption, hrequired]
  rfl

theorem planRedeem_of_planRedemption {payout : Amount} (hfresh : m.accrualTimestamp = now)
    (hpayout : m.underlyingOf tokens = .ok payout) {q : RedeemPlan}
    (hq : m.planRedemption redeemer tokens payout = .ok q) :
    m.planRedeem redeemer tokens now = .ok q := by
  simp only [planRedeem, bind_eq_ok, requireFresh_eq_ok]
  exact ⟨(), hfresh, payout, hpayout, hq⟩

/-- Redeeming an amount burns the least number of tokens that is worth it. The
tokens themselves pay the amount or more, if there is cash for that, and any
fewer tokens are redeemed for less. -/
theorem planRedeemUnderlying_least (hp : m.planRedeemUnderlying redeemer amount now = .ok p) :
    ∃ r, m.exchangeRate = .ok r ∧
      (p.redeemAmount = amount ∧
        amount.toNat * 10 ^ 18 ≤ p.redeemTokens.toNat * r.mantissa.toNat) ∧
      (0 < p.redeemTokens.toNat →
        (p.redeemTokens.toNat - 1) * r.mantissa.toNat < amount.toNat * 10 ^ 18) ∧
      (∀ payout, m.underlyingOf p.redeemTokens = .ok payout → amount ≤ payout ∧
        (payout ≤ m.cash → ∃ q, m.planRedeem redeemer p.redeemTokens now = .ok q ∧
          q.redeemAmount = payout) ∧
        (m.cash < payout → m.planRedeem redeemer p.redeemTokens now =
          .error (.insufficientCash m.cash payout))) ∧
      ∀ fewer < p.redeemTokens, ∃ q, m.planRedeem redeemer fewer now = .ok q ∧
        m.underlyingOf fewer = .ok q.redeemAmount ∧ q.redeemAmount < amount := by
  obtain ⟨r, hr, hfresh, hpos, hfits, htokens, hplan⟩ := planRedeemUnderlying_eq_ok hp
  have hworth : amount.toNat * 10 ^ 18 ≤ r.mantissa.toNat * p.redeemTokens.toNat := by
    rw [htokens]
    exact (ceilDiv_le_iff_le_mul hpos).mp le_rfl
  have hleast : ∀ n, n < p.redeemTokens.toNat →
      r.mantissa.toNat * n < amount.toNat * 10 ^ 18 := by
    intro n hn
    rwa [htokens, ← not_le, ceilDiv_le_iff_le_mul hpos, not_le] at hn
  refine ⟨r, hr, ⟨planRedeemUnderlying_redeemAmount hp, Nat.mul_comm r.mantissa.toNat _ ▸ hworth⟩,
    ?_, ?_, ?_⟩
  · intro hburned
    rw [Nat.mul_comm]
    exact hleast _ (Nat.sub_lt hburned Nat.one_pos)
  · intro payout hpayout
    refine ⟨?_, ?_, planRedeem_of_cash_lt hfresh hpayout⟩
    · rw [Amount.le_def, underlyingOf_eq_ok hpayout, ← exchangeRate_eq_ok hr]
      exact (Nat.le_div_iff_mul_le (by decide)).mpr hworth
    · intro hcash
      obtain ⟨q, hq⟩ := exists_planRedemption_of_le (Nat.le_refl _) hcash hplan
      exact ⟨q, planRedeem_of_planRedemption hfresh hpayout hq, (planRedemption_figures hq).2⟩
  · intro fewer hfewer
    have hless := hleast _ hfewer
    -- what fewer tokens pay fits and is in cash, since the amount does and is
    obtain ⟨payout, htruncate⟩ := Wad.exists_mulTruncate (hless.trans hfits)
    have hpayout : m.underlyingOf fewer = .ok payout := by
      rw [underlyingOf, hr]
      exact liftM_market_eq_ok.mpr htruncate
    have hlt : payout < amount := by
      rw [Amount.lt_def, Wad.mulTruncate_eq_ok htruncate]
      exact (Nat.div_lt_iff_lt_mul (by decide)).mpr hless
    have hcash := (planRedeemUnderlying_fits hp).cash
    rw [planRedeemUnderlying_redeemAmount hp] at hcash
    have hpaid : payout ≤ m.cash := by
      rw [Amount.lt_def] at hlt
      rw [Amount.le_def]
      omega
    obtain ⟨q, hq⟩ := exists_planRedemption_of_le (Nat.le_of_lt hfewer) hpaid hplan
    refine ⟨q, planRedeem_of_planRedemption hfresh hpayout hq, ?_⟩
    rw [(planRedemption_figures hq).2]
    exact ⟨hpayout, hlt⟩

/-- At the rate of the sample fifty million units are worth a fraction less than
49982007 tokens. -/
theorem sample_planRedeemUnderlying_least :
    ∃ p full fewer,
      sample.planRedeemUnderlying ⟨"alice"⟩ (.ofUInt64 50_000_000) 1000 = .ok p ∧
      p.redeemTokens = .ofUInt64 49_982_007 ∧
      sample.planRedeem ⟨"alice"⟩ p.redeemTokens 1000 = .ok full ∧
      .ofUInt64 50_000_000 ≤ full.redeemAmount ∧
      sample.planRedeem ⟨"alice"⟩ (.ofUInt64 49_982_006) 1000 = .ok fewer ∧
      fewer.redeemAmount < .ofUInt64 50_000_000 := by
  have hrun : (do
      let p ← sample.planRedeemUnderlying ⟨"alice"⟩ (.ofUInt64 50_000_000) 1000
      let payout ← sample.underlyingOf p.redeemTokens
      return (p.redeemTokens, payout)) =
      .ok (.ofUInt64 49_982_007, .ofUInt64 50_000_000) := by rfl
  simp only [bind_eq_ok, pure_eq_ok, Prod.mk.injEq] at hrun
  obtain ⟨p, hp, payout, hpayout, htokens, rfl⟩ := hrun
  obtain ⟨r, -, -, -, hfull, hfewer⟩ := planRedeemUnderlying_least hp
  obtain ⟨hworth, hpaid, -⟩ := hfull _ hpayout
  obtain ⟨full, hfull, hamount⟩ := hpaid (by decide)
  obtain ⟨fewer, hless, -, hlt⟩ := hfewer (.ofUInt64 49_982_006) (htokens ▸ by decide)
  exact ⟨p, full, fewer, hp, htokens, hfull, hamount ▸ hworth, hless, hlt⟩

end Market

end MoneyMarket
