import MoneyMarket.Proofs.Market.Rate

/-! # Round trips

Underlying that is supplied and redeemed again at once, or tokens that are
redeemed and bought back, come back as no more than they were. Supplying may
raise the rate that the way back is taken at, since the fraction of a token that
is not issued stays with the supply. But a rate that has been raised by a whole
unit has been paid for: the value that all tokens gain is more than what the
new ones could, so these are still worth no more than what they were bought for.
-/

namespace MoneyMarket.Market

variable {m : Market} {now : UInt64}

/-! ## What a redemption is planned for -/

section Redemption

variable {redeemer : AccountId} {redeemTokens redeemAmount : Amount} {p : RedeemPlan}

theorem planRedemption_figures
    (hp : m.planRedemption redeemer redeemTokens redeemAmount = .ok p) :
    p.redeemTokens = redeemTokens ∧ p.redeemAmount = redeemAmount := by
  simp only [planRedemption, bind_eq_ok, pure_eq_ok, Prod.exists] at hp
  obtain ⟨-, -, -, -, -, -, -, -, -, -, -, rfl⟩ := hp
  exact ⟨rfl, rfl⟩

theorem planRedeem_redeemTokens (hp : m.planRedeem redeemer redeemTokens now = .ok p) :
    p.redeemTokens = redeemTokens := by
  simp only [planRedeem, bind_eq_ok] at hp
  obtain ⟨-, -, amount, -, hp⟩ := hp
  exact (planRedemption_figures hp).1

theorem planRedeemUnderlying_redeemAmount
    (hp : m.planRedeemUnderlying redeemer redeemAmount now = .ok p) :
    p.redeemAmount = redeemAmount := by
  simp only [planRedeemUnderlying, bind_eq_ok] at hp
  obtain ⟨-, -, rate, -, scaled, -, full, -, hp⟩ := hp
  -- whether a whole token is added or not
  split at hp
  all_goals
    obtain ⟨tokens, -, hp⟩ := bind_eq_ok.mp hp
    exact (planRedemption_figures hp).2

end Redemption

/-! ## The value of new tokens -/

section Supply

variable {p : MintPlan} {minter : AccountId} {amount : Amount} {isMember : Bool}

/-- New tokens are worth no more than what was paid for them at the rate that
they leave, either. -/
theorem rate_settleMint_mul_tokens_le (hm : m.Consistent)
    (hp : p.Fits m minter amount isMember) (hsupply : 0 < m.totalSupply) :
    (m.settleMint p).1.rate * p.mintTokens.toNat ≤ amount.toNat * 10 ^ 18 := by
  rcases Nat.lt_or_ge m.rate (m.settleMint p).1.rate with hraised | hkept
  · -- the old supply is worth more than the old assets at the raised rate
    have hassets : m.netAssets * 10 ^ 18 < (m.settleMint p).1.rate * m.totalSupply.toNat := by
      by_contra hvalue
      exact absurd (le_rate (Nat.ne_of_gt hsupply) (not_lt.mp hvalue)) (not_le.mpr hraised)
    have hvalue := (m.settleMint p).1.rate_mul_supply_le
    rw [netAssets_settleMint hm hp, totalSupply_settleMint hp, Nat.mul_add, Nat.add_mul] at hvalue
    omega
  · exact (Nat.mul_le_mul_right _ hkept).trans hp.rate_mul_tokens_le

end Supply

/-- Among tokens at one positive rate, more worth is more tokens. -/
theorem le_of_mul_rate_le {r t n : Nat} (hr : 0 < r) (hle : r * t ≤ n * r) : t ≤ n :=
  Nat.le_of_mul_le_mul_left (Nat.mul_comm n r ▸ hle) hr

/-- No account gains by a round trip in a reachable market with tokens. The tokens
that underlying buys pay no more than it at once, and no fewer tokens would pay
it back. What redeemed tokens pay buys no more tokens than they were. -/
theorem Reachable.roundTrip_le (hm : m.Reachable) (hsupply : 0 < m.totalSupply) :
    (∀ minter amount isMember now p, m.planMint minter amount isMember now = .ok p →
      (∀ redeemer q, (m.settleMint p).1.planRedeem redeemer p.mintTokens now = .ok q →
        q.redeemAmount ≤ amount) ∧
      ∀ redeemer q, (m.settleMint p).1.planRedeemUnderlying redeemer amount now = .ok q →
        p.mintTokens ≤ q.redeemTokens) ∧
    ∀ redeemer tokens now q, m.planRedeem redeemer tokens now = .ok q →
      0 < (m.settleRedeem q).1.totalSupply →
      ∀ minter isMember p,
        (m.settleRedeem q).1.planMint minter q.redeemAmount isMember now = .ok p →
          p.mintTokens ≤ tokens := by
  have hpriced := hm.priced
  constructor
  · intro minter amount isMember now p hp
    have hfits := planMint_fits hp
    have hworth := rate_settleMint_mul_tokens_le hpriced.consistent hfits hsupply
    have hchange : Change m (.mint minter amount isMember now) (m.settleMint p).1 := .minted hfits
    have hafter := hpriced.change hchange
    constructor
    · intro redeemer q hq
      have hpayout := (planRedeem_fits hq).payout
      rw [planRedeem_redeemTokens hq, Nat.mul_comm p.mintTokens.toNat] at hpayout
      exact Nat.le_of_mul_le_mul_right (hpayout.trans hworth) (by decide : 0 < 10 ^ 18)
    · intro redeemer q hq
      have hpayout := (planRedeemUnderlying_fits hq).payout
      rw [planRedeemUnderlying_redeemAmount hq] at hpayout
      exact le_of_mul_rate_le (hafter.initial_pos.trans_le hafter.initial_le)
        (hworth.trans hpayout)
  · intro redeemer tokens now q hq hleft minter isMember p hp
    have hfits := planRedeem_fits hq
    have hrate : m.rate ≤ (m.settleRedeem q).1.rate :=
      le_rate (Nat.ne_of_gt hleft) (rate_mul_supply_le_settleRedeem hfits)
    have hpositive := hpriced.initial_pos.trans_le hpriced.initial_le
    have hpayout := hfits.payout
    rw [planRedeem_redeemTokens hq] at hpayout
    refine le_of_mul_rate_le hpositive ?_
    calc m.rate * p.mintTokens.toNat
      _ ≤ (m.settleRedeem q).1.rate * p.mintTokens.toNat := Nat.mul_le_mul_right _ hrate
      _ ≤ q.redeemAmount.toNat * 10 ^ 18 := (planMint_fits hp).rate_mul_tokens_le
      _ ≤ tokens.toNat * m.rate := hpayout

/-- Whoever supplies a thousand units to the sample gets one of them less back. -/
theorem sample_roundTrip_le :
    (∃ p q n, sample.planMint ⟨"alice"⟩ (.ofUInt64 1000) false 1000 = .ok p ∧
      (sample.settleMint p).1.planRedeem ⟨"alice"⟩ p.mintTokens 1000 = .ok q ∧
      q.redeemAmount = .ofUInt64 999 ∧ q.redeemAmount ≤ .ofUInt64 1000 ∧
      (sample.settleMint p).1.planRedeemUnderlying ⟨"alice"⟩ (.ofUInt64 1000) 1000 = .ok n ∧
      p.mintTokens ≤ n.redeemTokens) ∧
    ∃ q p, sample.planRedeem ⟨"alice"⟩ (.ofUInt64 1000) 1000 = .ok q ∧
      0 < (sample.settleRedeem q).1.totalSupply ∧
      (sample.settleRedeem q).1.planMint ⟨"alice"⟩ q.redeemAmount false 1000 = .ok p ∧
      p.mintTokens ≤ .ofUInt64 1000 := by
  obtain ⟨hmint, hredeem⟩ := sample_reachable.roundTrip_le (by decide)
  constructor
  · have hrun : (do
        let p ← sample.planMint ⟨"alice"⟩ (.ofUInt64 1000) false 1000
        let q ← (sample.settleMint p).1.planRedeem ⟨"alice"⟩ p.mintTokens 1000
        let n ← (sample.settleMint p).1.planRedeemUnderlying ⟨"alice"⟩ (.ofUInt64 1000) 1000
        return (q.redeemAmount, n.redeemTokens)) = .ok (.ofUInt64 999, .ofUInt64 1000) := by rfl
    simp only [bind_eq_ok, pure_eq_ok, Prod.mk.injEq] at hrun
    obtain ⟨p, hp, q, hq, n, hn, hpaid, -⟩ := hrun
    obtain ⟨htokens, hunderlying⟩ := hmint _ _ _ _ p hp
    exact ⟨p, q, n, hp, hq, hpaid, htokens _ q hq, hn, hunderlying _ n hn⟩
  · have hrun : (do
        let q ← sample.planRedeem ⟨"alice"⟩ (.ofUInt64 1000) 1000
        let p ← (sample.settleRedeem q).1.planMint ⟨"alice"⟩ q.redeemAmount false 1000
        return ((sample.settleRedeem q).1.totalSupply, p.mintTokens)) =
        .ok (.ofUInt64 999_999_000, .ofUInt64 999) := by rfl
    simp only [bind_eq_ok, pure_eq_ok, Prod.mk.injEq] at hrun
    obtain ⟨q, hq, p, hp, hsupply, -⟩ := hrun
    have hleft : 0 < (sample.settleRedeem q).1.totalSupply := hsupply ▸ by decide
    exact ⟨q, p, hq, hleft, hp, hredeem _ _ _ q hq hleft _ _ p hp⟩

end MoneyMarket.Market
