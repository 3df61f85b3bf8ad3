import MoneyMarket.Numeral

/-! # Numerals with a decimal point

A number of units in the last place, together with the count of places behind
the point, is written positionally: the whole part as a shortest numeral, then
a point and exactly that many digits. With no places there is no point.
Dropping the zeros at the end keeps the number that the pair denotes.
-/

namespace MoneyMarket.Numeral

/-- The last `places` decimal digits of `n`, padded with zeros in front. -/
def lastDigits : (places n : Nat) → List Char
  | 0, _ => []
  | places + 1, n => lastDigits places (n / 10) ++ [(n % 10).digitChar]

/-- Writes `n / 10 ^ places`. -/
def writePoint (places n : Nat) : List Char :=
  let whole := write 10 (n / Nat.pow 10 places)
  if places = 0 then whole else whole ++ '.' :: lastDigits places n

/-- Drops zeros at the end of the digits behind the point: the new number of
places and the new number of units. -/
def dropZeros : (places n : Nat) → Nat × Nat
  | 0, n => (0, n)
  | places + 1, n => if n % 10 = 0 then dropZeros places (n / 10) else (places + 1, n)

@[simp]
theorem length_lastDigits (places n : Nat) : (lastDigits places n).length = places := by
  induction places generalizing n with
  | zero => rfl
  | succ places ih => simp [lastDigits, ih]

theorem dropZeros_places_le (places n : Nat) : (dropZeros places n).1 ≤ places := by
  induction places generalizing n with
  | zero => simp [dropZeros]
  | succ places ih =>
    unfold dropZeros
    split
    · exact Nat.le_succ_of_le (ih _)
    · exact Nat.le_refl _

theorem dropZeros_le (places n : Nat) : (dropZeros places n).2 ≤ n := by
  induction places generalizing n with
  | zero => simp [dropZeros]
  | succ places ih =>
    unfold dropZeros
    split
    · exact Nat.le_trans (ih _) (Nat.div_le_self ..)
    · exact Nat.le_refl _

/-- The number denoted does not change. -/
theorem dropZeros_mul_pow (places n : Nat) :
    (dropZeros places n).2 * Nat.pow 10 (places - (dropZeros places n).1) = n := by
  induction places generalizing n with
  | zero => simp [dropZeros]
  | succ places ih =>
    unfold dropZeros
    split
    next hzero =>
      have hle := dropZeros_places_le places (n / 10)
      rw [Nat.succ_sub hle, Nat.pow_eq, Nat.pow_succ, ← Nat.mul_assoc, ← Nat.pow_eq, ih]
      omega
    next => simp

/-- The last digit kept behind the point is not zero. -/
theorem dropZeros_mod_ten (places n : Nat) (hplaces : (dropZeros places n).1 ≠ 0) :
    (dropZeros places n).2 % 10 ≠ 0 := by
  induction places generalizing n with
  | zero => simp [dropZeros] at hplaces
  | succ places ih =>
    unfold dropZeros at hplaces ⊢
    split
    next hzero =>
      rw [if_pos hzero] at hplaces
      exact ih _ hplaces
    next hzero => exact hzero

end MoneyMarket.Numeral
