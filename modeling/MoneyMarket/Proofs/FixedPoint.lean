import Mathlib.Algebra.Group.Nat.Defs
import MoneyMarket.Proofs.Success

/-! # Exact results of fixed-point arithmetic

Where the arithmetic of amounts and wads succeeds, its result is a number
computed from the numbers of the operands, with whatever lies behind the last
place cut off.
-/

namespace MoneyMarket

theorem Amount.exists_toNat_eq {n : Nat} (hn : n < 2 ^ 256) : ∃ a : Amount, a.toNat = n :=
  ⟨⟨n, hn⟩, rfl⟩

theorem Amount.eq_zero_of_le {a b : Amount} (hle : a.toNat ≤ b.toNat) (hb : b = 0) : a = 0 := by
  rw [hb] at hle
  exact eq_zero_iff.mpr (Nat.le_zero.mp hle)

theorem Amount.toNat_min (a b : Amount) : (min a b).toNat = min a.toNat b.toNat := by
  change (if a ≤ b then a else b).toNat = _
  rw [Nat.min_def, apply_ite Amount.toNat]
  rfl

theorem Amount.sub_eq_error {a b : Amount} {e : ArithmeticError} :
    a.sub b = .error e ↔ a.toNat < b.toNat ∧ e = .underflow := by
  unfold Amount.sub
  split
  next hle =>
    rw [Amount.le_def] at hle
    simp only [reduceCtorEq, false_iff]
    omega
  next hlt =>
    rw [Amount.le_def] at hlt
    constructor
    · intro he
      exact ⟨by omega, (Except.error.inj he).symm⟩
    · rintro ⟨-, rfl⟩
      rfl

theorem Amount.exists_add {a b : Amount} (hfits : a.toNat + b.toNat < 2 ^ 256) :
    ∃ c, a.add b = .ok c ∧ c.toNat = a.toNat + b.toNat := by
  obtain ⟨c, hc⟩ := exists_toNat_eq hfits
  exact ⟨c, add_eq_ok.mpr hc.symm, hc⟩

theorem Amount.exists_sub {a b : Amount} (hle : b.toNat ≤ a.toNat) : ∃ c, a.sub b = .ok c := by
  cases hsub : a.sub b with
  | ok c => exact ⟨c, rfl⟩
  | error e => exact absurd (sub_eq_error.mp hsub).1 (Nat.not_lt.mpr hle)

/-! ## Errors of the arithmetic -/

section Errors

variable {a b : Amount} {e : ArithmeticError}

theorem Amount.avoids_add (he : e ≠ .overflow) : Avoids e (a.add b) :=
  fun herror => he (Amount.ofNat_eq_error.mp herror).2

theorem Amount.avoids_mul (he : e ≠ .overflow) : Avoids e (a.mul b) :=
  fun herror => he (Amount.ofNat_eq_error.mp herror).2

theorem Amount.avoids_sub (he : e ≠ .underflow) : Avoids e (a.sub b) :=
  fun herror => he (Amount.sub_eq_error.mp herror).2

theorem Amount.liftM_add_eq_error {e : MarketError}
    (herror : (liftM (a.add b) : Except MarketError Amount) = .error e) :
    e = .arithmetic .overflow := by
  obtain ⟨cause, hcause, rfl⟩ := mapError_eq_error.mp herror
  rw [(Amount.ofNat_eq_error.mp hcause).2]

/-- Nothing goes wrong in a division by a number that is not zero. -/
theorem Amount.avoids_div (hb : b ≠ 0) : Avoids e (a.div b) := by
  unfold Amount.div
  rw [if_neg hb]
  exact avoids_ok _ _

/-- A sum underflows never. -/
theorem Amount.add_ne_underflow : a.add b ≠ .error .underflow := avoids_add (by decide)

theorem Amount.mul_ne_underflow : a.mul b ≠ .error .underflow := avoids_mul (by decide)

theorem Amount.div_ne_underflow : a.div b ≠ .error .underflow := by
  unfold Amount.div
  split <;> exact fun h => by cases h

end Errors

namespace Wad

theorem exists_toNat_eq {n : Nat} (hn : n < 2 ^ 256) : ∃ a : Wad, a.mantissa.toNat = n :=
  ⟨⟨⟨n, hn⟩⟩, rfl⟩

theorem toNat_min (a b : Wad) :
    (min a b).mantissa.toNat = min a.mantissa.toNat b.mantissa.toNat := by
  change (if a ≤ b then a else b).mantissa.toNat = _
  rw [Nat.min_def, apply_ite Wad.mantissa, apply_ite Amount.toNat]
  rfl

theorem add_eq_ok {a b c : Wad} :
    a.add b = .ok c ↔ a.mantissa.toNat + b.mantissa.toNat = c.mantissa.toNat := by
  simp only [add, map_eq_ok, bind_pure_comp, Amount.add_eq_ok]
  constructor
  · rintro ⟨s, hs, rfl⟩
    exact hs
  · intro hc
    exact ⟨c.mantissa, hc, rfl⟩

theorem sub_eq_ok {a b c : Wad} :
    a.sub b = .ok c ↔ a.mantissa.toNat = b.mantissa.toNat + c.mantissa.toNat := by
  simp only [sub, map_eq_ok, bind_pure_comp, Amount.sub_eq_ok]
  constructor
  · rintro ⟨d, hd, rfl⟩
    exact hd
  · intro hc
    exact ⟨c.mantissa, hc, rfl⟩

theorem mulAmount_eq_ok {a c : Wad} {n : Amount} :
    a.mulAmount n = .ok c ↔ a.mantissa.toNat * n.toNat = c.mantissa.toNat := by
  simp only [mulAmount, map_eq_ok, bind_pure_comp, Amount.mul_eq_ok]
  constructor
  · rintro ⟨p, hp, rfl⟩
    exact hp
  · intro hc
    exact ⟨c.mantissa, hc, rfl⟩

theorem mulTruncate_eq_ok {a : Wad} {n c : Amount} (hc : a.mulTruncate n = .ok c) :
    c.toNat = a.mantissa.toNat * n.toNat / 10 ^ 18 := by
  simp only [mulTruncate, map_eq_ok, bind_pure_comp, mulAmount_eq_ok] at hc
  obtain ⟨p, hp, rfl⟩ := hc
  rw [hp]
  rfl

/-- A share of at most one is not more than the whole. -/
theorem share_le {w : Wad} (hw : w ≤ 1) (n : Nat) : w.mantissa.toNat * n / 10 ^ 18 ≤ n :=
  Nat.div_le_of_le_mul (Nat.mul_le_mul_right n hw)

/-- A part and a summand exist together if the product fits and the sum does. -/
theorem mulTruncateAdd_eq_ok_iff {a : Wad} {n addend c : Amount} :
    a.mulTruncateAdd n addend = .ok c ↔ a.mantissa.toNat * n.toNat < 2 ^ 256 ∧
      a.mantissa.toNat * n.toNat / 10 ^ 18 + addend.toNat = c.toNat := by
  simp only [mulTruncateAdd, mulTruncate, bind_eq_ok, pure_eq_ok, mulAmount_eq_ok,
    Amount.add_eq_ok]
  constructor
  · rintro ⟨_, ⟨product, hproduct, rfl⟩, hsum⟩
    rw [hproduct]
    exact ⟨product.mantissa.toNat_lt, hsum⟩
  · rintro ⟨hfits, hsum⟩
    obtain ⟨product, hproduct⟩ := exists_toNat_eq hfits
    rw [← hproduct] at hsum
    exact ⟨product.truncate, ⟨product, hproduct.symm, rfl⟩, hsum⟩

theorem mulTruncateAdd_eq_ok {a : Wad} {n addend c : Amount}
    (hc : a.mulTruncateAdd n addend = .ok c) :
    c.toNat = a.mantissa.toNat * n.toNat / 10 ^ 18 + addend.toNat :=
  (mulTruncateAdd_eq_ok_iff.mp hc).2.symm

/-- Where larger figures can be taken together, smaller ones can. -/
theorem refines_mulTruncateAdd {a : Wad} {n n' addend addend' : Amount} (hn : n' ≤ n)
    (haddend : addend' ≤ addend) :
    Refines (fun c c' => c' ≤ c) (a.mulTruncateAdd n addend) (a.mulTruncateAdd n' addend') := by
  intro c hc
  obtain ⟨hfits, hsum⟩ := mulTruncateAdd_eq_ok_iff.mp hc
  have hproducts : a.mantissa.toNat * n'.toNat ≤ a.mantissa.toNat * n.toNat :=
    Nat.mul_le_mul_left _ hn
  have hsums : a.mantissa.toNat * n'.toNat / 10 ^ 18 + addend'.toNat ≤ c.toNat :=
    hsum ▸ Nat.add_le_add (Nat.div_le_div_right hproducts) haddend
  obtain ⟨c', hc'⟩ := Amount.exists_toNat_eq (Nat.lt_of_le_of_lt hsums c.toNat_lt)
  refine ⟨c', mulTruncateAdd_eq_ok_iff.mpr ⟨Nat.lt_of_le_of_lt hproducts hfits, hc'.symm⟩, ?_⟩
  exact Amount.le_def.mpr (hc' ▸ hsums)

theorem mul_eq_ok {a b c : Wad} (hc : a.mul b = .ok c) :
    c.mantissa.toNat = a.mantissa.toNat * b.mantissa.toNat / 10 ^ 18 := by
  simp only [mul, map_eq_ok, bind_pure_comp, bind_eq_ok, Amount.mul_eq_ok, Amount.div_eq_ok] at hc
  obtain ⟨p, hp, q, ⟨-, hq⟩, rfl⟩ := hc
  rw [hp]
  exact hq.symm

/-- A product exists if that of the mantissas fits. -/
theorem mul_eq_ok_iff {a b c : Wad} :
    a.mul b = .ok c ↔ a.mantissa.toNat * b.mantissa.toNat < 2 ^ 256 ∧
      a.mantissa.toNat * b.mantissa.toNat / 10 ^ 18 = c.mantissa.toNat := by
  constructor
  · intro hc
    refine ⟨?_, (mul_eq_ok hc).symm⟩
    simp only [mul, map_eq_ok, bind_pure_comp, bind_eq_ok, Amount.mul_eq_ok] at hc
    obtain ⟨product, hproduct, -⟩ := hc
    exact hproduct ▸ product.toNat_lt
  · rintro ⟨hfits, hc⟩
    obtain ⟨product, hproduct⟩ := Amount.exists_toNat_eq hfits
    simp only [mul, map_eq_ok, bind_pure_comp, bind_eq_ok, Amount.mul_eq_ok, Amount.div_eq_ok]
    rw [← hproduct] at hc
    exact ⟨product, hproduct.symm, c.mantissa, ⟨by decide, hc⟩, rfl⟩

/-- A product and a summand exist together if the product of the mantissas fits
and the sum does. -/
theorem mul_add_eq_ok {a b c d : Wad} : (do (← a.mul b).add c) = .ok d ↔
    a.mantissa.toNat * b.mantissa.toNat < 2 ^ 256 ∧
      a.mantissa.toNat * b.mantissa.toNat / 10 ^ 18 + c.mantissa.toNat = d.mantissa.toNat := by
  simp only [bind_eq_ok, mul_eq_ok_iff, add_eq_ok]
  constructor
  · rintro ⟨product, ⟨hfits, hproduct⟩, hsum⟩
    exact ⟨hfits, hproduct ▸ hsum⟩
  · rintro ⟨hfits, hsum⟩
    obtain ⟨product, hproduct⟩ :=
      exists_toNat_eq (Nat.lt_of_le_of_lt (Nat.div_le_self _ _) hfits)
    exact ⟨product, ⟨hfits, hproduct.symm⟩, hproduct ▸ hsum⟩

theorem ofRatio_eq_ok {numerator denominator : Amount} {c : Wad}
    (hc : ofRatio numerator denominator = .ok c) :
    c.mantissa.toNat = numerator.toNat * 10 ^ 18 / denominator.toNat := by
  simp only [ofRatio, guard_eq_ok, map_eq_ok, bind_pure_comp, bind_eq_ok, Amount.mul_eq_ok,
    Amount.div_eq_ok] at hc
  obtain ⟨-, p, hp, q, ⟨-, hq⟩, rfl⟩ := hc
  rw [← hq, ← hp]
  rfl

theorem denominator_pos {numerator denominator : Amount} {c : Wad}
    (hc : ofRatio numerator denominator = .ok c) : 0 < denominator.toNat := by
  simp only [ofRatio, guard_eq_ok, Amount.eq_zero_iff] at hc
  exact Nat.pos_of_ne_zero hc.1

theorem avoids_ofRatio {numerator denominator : Amount} {e : ArithmeticError} (he : e ≠ .overflow)
    (hdenominator : denominator ≠ 0) : Avoids e (ofRatio numerator denominator) := by
  unfold ofRatio
  rw [if_neg hdenominator]
  exact (Amount.avoids_mul he).bind fun _ _ =>
    (Amount.avoids_div hdenominator).bind fun _ _ => avoids_pure _ _

theorem avoids_mul {a b : Wad} {e : ArithmeticError} (he : e ≠ .overflow) : Avoids e (a.mul b) :=
  (Amount.avoids_mul he).bind fun _ _ =>
    (Amount.avoids_div (by decide)).bind fun _ _ => avoids_pure _ _

theorem avoids_mulTruncateAdd {a : Wad} {n addend : Amount} {e : ArithmeticError}
    (he : e ≠ .overflow) : Avoids e (a.mulTruncateAdd n addend) := by
  have hproduct : Avoids e (a.mulAmount n) :=
    (Amount.avoids_mul he).bind fun _ _ => avoids_pure _ _
  exact (hproduct.bind fun _ _ => avoids_pure _ _).bind fun _ _ => Amount.avoids_add he

/-- A ratio underflows never. -/
theorem ofRatio_ne_underflow {numerator denominator : Amount} :
    ofRatio numerator denominator ≠ .error .underflow := by
  unfold ofRatio
  split
  · simp [throw, throwThe, MonadExceptOf.throw, bind, Except.bind]
  · simp only [bind_pure_comp, ne_eq, map_eq_error, bind_eq_error]
    rintro (hmul | ⟨p, -, hdiv⟩)
    · exact Amount.mul_ne_underflow hmul
    · exact Amount.div_ne_underflow hdiv

/-! ## Nothing -/

theorem zero_mulAmount (n : Amount) : (0 : Wad).mulAmount n = .ok 0 :=
  mulAmount_eq_ok.mpr (Nat.zero_mul _)

theorem zero_mulTruncate (n : Amount) : (0 : Wad).mulTruncate n = .ok 0 := by
  rw [mulTruncate, zero_mulAmount]
  rfl

theorem zero_mul (w : Wad) : (0 : Wad).mul w = .ok 0 := by
  have hproduct : (0 : Wad).mantissa.mul w.mantissa = .ok 0 :=
    Amount.mul_eq_ok.mpr (Nat.zero_mul _)
  rw [mul, hproduct]
  rfl

theorem mulTruncateAdd_zero (w : Wad) (addend : Amount) :
    w.mulTruncateAdd 0 addend = .ok addend := by
  have hproduct : w.mulAmount 0 = .ok 0 := mulAmount_eq_ok.mpr (Nat.mul_zero _)
  rw [mulTruncateAdd, mulTruncate, hproduct]
  exact Amount.add_eq_ok.mpr (Nat.zero_add _)

theorem add_zero (w : Wad) : w.add 0 = .ok w := by
  have hsum : w.mantissa.add 0 = .ok w.mantissa := Amount.add_eq_ok.mpr (Nat.add_zero _)
  change (w.mantissa.add 0 >>= fun sum => pure (⟨sum⟩ : Wad)) = .ok w
  rw [hsum]
  rfl

end Wad

end MoneyMarket
