import Mathlib.Algebra.Order.Field.Rat
import Mathlib.Data.List.DropRight
import Mathlib.Data.List.TakeWhile
import Mathlib.Tactic.Positivity
import MoneyMarket.Wad

/-! # Plain decimals

The text of a wad is a plain decimal: digits without a superfluous zero in
front, and maybe a point and further digits without a zero at the end. It
denotes exactly the number that the wad is. A plain decimal can be read in one
way only, so different wads have different texts.
-/

namespace MoneyMarket

namespace Numeral

theorem isDigit_of_mem_write {n : Nat} {c : Char} (hc : c ∈ write 10 n) : c.isDigit = true :=
  Nat.isDigit_of_mem_toDigits (by decide) (by decide) hc

theorem ofDigitChars_write (n : Nat) : Nat.ofDigitChars 10 (write 10 n) 0 = n :=
  Nat.ofDigitChars_ten_toDigits

theorem head?_write_ne_zero {n : Nat} (hn : n ≠ 0) : (write 10 n).head? ≠ some '0' := by
  induction n using Nat.strongRecOn with
  | ind n ih =>
    by_cases hlt : n < 10
    · simp [write, Nat.toDigits_of_lt_base hlt, hn]
    -- the first digit is the first one of the number without its last digit
    · have hhead := ih (n / 10) (by omega) (by omega)
      rw [write, Nat.toDigits_of_base_le (by decide) (by omega),
        List.head?_append_of_ne_nil _ Nat.toDigits_ne_nil]
      exact hhead

theorem isDigit_of_mem_lastDigits {places n : Nat} {c : Char} (hc : c ∈ lastDigits places n) :
    c.isDigit = true := by
  induction places generalizing n with
  | zero => cases hc
  | succ places ih =>
    rcases List.mem_append.mp hc with hc | hc
    · exact ih hc
    · rw [List.mem_singleton.mp hc, Nat.isDigit_digitChar]
      simpa using Nat.mod_lt n (by decide)

theorem ofDigitChars_lastDigits (places n : Nat) :
    Nat.ofDigitChars 10 (lastDigits places n) 0 = n % 10 ^ places := by
  induction places generalizing n with
  | zero => simp [lastDigits, Nat.mod_one]
  | succ places ih =>
    have hdigit : n % 10 < 10 := Nat.mod_lt n (by decide)
    rw [lastDigits, Nat.ofDigitChars_append, ih,
      Nat.ofDigitChars_cons_digitChar_of_lt_ten hdigit, Nat.ofDigitChars_nil, pow_succ',
      Nat.mod_mul, Nat.add_comm]

theorem getLast?_lastDigits_ne_zero {places n : Nat} (hn : places ≠ 0 → n % 10 ≠ 0) :
    (lastDigits places n).getLast? ≠ some '0' := by
  cases places with
  | zero => simp [lastDigits]
  | succ places => simpa [lastDigits] using hn

/-! ## Padding and trimming -/

theorem lastDigits_zero (places : Nat) : lastDigits places 0 = List.replicate places '0' := by
  induction places with
  | zero => rfl
  | succ places ih =>
    rw [lastDigits, Nat.zero_div, ih, List.replicate_succ']
    rfl

theorem lastDigits_mod (places n : Nat) :
    lastDigits places (n % 10 ^ places) = lastDigits places n := by
  induction places generalizing n with
  | zero => rfl
  | succ places ih =>
    rw [lastDigits, lastDigits, pow_succ', Nat.mod_mul_right_div_self, ih,
      Nat.mod_mul_right_mod]

/-- The last digits are the shortest numeral, padded with zeros in front. -/
theorem leftpad_write {places n : Nat} (hn : n ≠ 0) (hlt : n < 10 ^ places) :
    (write 10 n).leftpad places '0' = lastDigits places n := by
  induction places generalizing n with
  | zero => omega
  | succ places ih =>
    have hsplit : write 10 n = if n < 10 then [n.digitChar] else
        write 10 (n / 10) ++ [(n % 10).digitChar] := by
      split
      next hlt => rw [write, Nat.toDigits_of_lt_base hlt]
      next hle => rw [write, Nat.toDigits_of_base_le (by decide) (by omega), write]
    rw [hsplit, lastDigits]
    split
    next hdigit =>
      rw [Nat.div_eq_of_lt hdigit, Nat.mod_eq_of_lt hdigit, lastDigits_zero]
      simp [List.leftpad]
    next hdigit =>
      rw [← ih (by omega) (by omega)]
      simp [List.leftpad]

/-- Dropping the zeros of a number drops those at the end of its last digits. -/
theorem lastDigits_dropZeros (places n : Nat) :
    lastDigits (dropZeros places n).1 (dropZeros places n).2 =
      (lastDigits places n).rdropWhile (· == '0') := by
  induction places generalizing n with
  | zero => rfl
  | succ places ih =>
    rw [dropZeros, lastDigits]
    split
    next hzero => rw [ih, hzero, List.rdropWhile_concat_pos _ _ _ rfl]
    next hne => rw [lastDigits, List.rdropWhile_concat_neg _ _ _ (by simpa using hne)]

theorem dropZeros_fst_eq_zero_iff {places n : Nat} :
    (dropZeros places n).1 = 0 ↔ n % 10 ^ places = 0 := by
  induction places generalizing n with
  | zero => simp [dropZeros, Nat.mod_one]
  | succ places ih =>
    rw [dropZeros, pow_succ', Nat.mod_mul]
    split
    next hzero =>
      rw [ih, hzero]
      omega
    next hne => simp [hne]

theorem dropZeros_snd_div (places n : Nat) :
    (dropZeros places n).2 / 10 ^ (dropZeros places n).1 = n / 10 ^ places := by
  have hplaces : 10 ^ places =
      10 ^ (dropZeros places n).1 * 10 ^ (places - (dropZeros places n).1) := by
    rw [← pow_add, Nat.add_sub_cancel' (dropZeros_places_le places n)]
  have hunits : (dropZeros places n).2 * 10 ^ (places - (dropZeros places n).1) = n :=
    dropZeros_mul_pow places n
  calc (dropZeros places n).2 / 10 ^ (dropZeros places n).1
      = (dropZeros places n).2 * 10 ^ (places - (dropZeros places n).1) /
          (10 ^ (dropZeros places n).1 * 10 ^ (places - (dropZeros places n).1)) :=
        (Nat.mul_div_mul_right _ _ (by positivity)).symm
    _ = n / 10 ^ places := by rw [hunits, ← hplaces]

end Numeral

/-- A plain decimal number as it is written: the digits in front of the point
and the ones behind it. -/
@[ext]
structure PlainDecimal where
  whole : List Char
  fraction : List Char
  whole_ne_nil : whole ≠ []
  isDigit_of_mem_whole : ∀ c ∈ whole, c.isDigit = true
  isDigit_of_mem_fraction : ∀ c ∈ fraction, c.isDigit = true
  /-- A zero in front stands alone. -/
  eq_of_leading_zero : whole.head? = some '0' → whole = ['0']
  no_trailing_zero : fraction.getLast? ≠ some '0'

namespace PlainDecimal

/-- The point is written only if there are digits behind it. -/
def text (t : PlainDecimal) : List Char :=
  if t.fraction = [] then t.whole else t.whole ++ '.' :: t.fraction

/-- The number that the digits denote. -/
def value (t : PlainDecimal) : ℚ :=
  Nat.ofDigitChars 10 t.whole 0 + Nat.ofDigitChars 10 t.fraction 0 / 10 ^ t.fraction.length

/-! ## Reading -/

theorem takeWhile_text (t : PlainDecimal) : t.text.takeWhile Char.isDigit = t.whole := by
  have hwhole : t.whole.takeWhile Char.isDigit = t.whole :=
    List.takeWhile_eq_self_iff.mpr t.isDigit_of_mem_whole
  rw [text]
  split
  next => exact hwhole
  next =>
    rw [List.takeWhile_append_of_pos t.isDigit_of_mem_whole,
      List.takeWhile_cons_of_neg (by decide), List.append_nil]

theorem drop_dropWhile_text (t : PlainDecimal) :
    (t.text.dropWhile Char.isDigit).drop 1 = t.fraction := by
  rw [text]
  split
  next hnil =>
    rw [List.dropWhile_eq_nil_iff.mpr t.isDigit_of_mem_whole, hnil]
    rfl
  next =>
    rw [List.dropWhile_append_of_pos t.isDigit_of_mem_whole,
      List.dropWhile_cons_of_neg (by decide)]
    rfl

/-- A text is read in one way only. -/
theorem text_injective {t u : PlainDecimal} (htext : t.text = u.text) : t = u := by
  ext1
  · rw [← takeWhile_text t, htext, takeWhile_text]
  · rw [← drop_dropWhile_text t, htext, drop_dropWhile_text]

/-! ## Writing -/

/-- The plain decimal of a number of units in the last place. -/
def ofUnits (places n : Nat) (hlast : places ≠ 0 → n % 10 ≠ 0) : PlainDecimal where
  whole := Numeral.write 10 (n / 10 ^ places)
  fraction := Numeral.lastDigits places n
  whole_ne_nil := Numeral.write_ne_nil (by decide) _
  isDigit_of_mem_whole _ := Numeral.isDigit_of_mem_write
  isDigit_of_mem_fraction _ := Numeral.isDigit_of_mem_lastDigits
  eq_of_leading_zero hhead := by
    by_cases hzero : n / 10 ^ places = 0
    · rw [hzero]
      rfl
    · exact absurd hhead (Numeral.head?_write_ne_zero hzero)
  no_trailing_zero := Numeral.getLast?_lastDigits_ne_zero hlast

variable {places n : Nat}

theorem text_ofUnits (hlast : places ≠ 0 → n % 10 ≠ 0) :
    (ofUnits places n hlast).text = Numeral.writePoint places n := by
  rw [text, Numeral.writePoint]
  cases places with
  | zero => rfl
  | succ places =>
    rw [if_neg (by simp [ofUnits, Numeral.lastDigits]), if_neg (by simp)]
    rfl

theorem value_ofUnits (hlast : places ≠ 0 → n % 10 ≠ 0) :
    (ofUnits places n hlast).value = n / 10 ^ places := by
  have hsplit : (n : ℚ) = 10 ^ places * (n / 10 ^ places : ℕ) + (n % 10 ^ places : ℕ) := by
    exact_mod_cast (Nat.div_add_mod n (10 ^ places)).symm
  have hvalue : (ofUnits places n hlast).value =
      (n / 10 ^ places : ℕ) + (n % 10 ^ places : ℕ) / 10 ^ places := by
    simp only [value, ofUnits, Numeral.length_lastDigits, Numeral.ofDigitChars_lastDigits,
      Numeral.ofDigitChars_write]
  rw [hvalue, eq_div_iff (by positivity), add_mul, div_mul_cancel₀ _ (by positivity), mul_comm,
    ← hsplit]

end PlainDecimal

namespace Wad

/-- The whole part stands alone if there is nothing behind the point. Otherwise
what is behind it is padded with zeros in front, up to eighteen places, and then
loses the zeros at its end. -/
theorem text_eq (w : Wad) : w.text =
    let whole := Numeral.write 10 (w.mantissa.toNat / 10 ^ 18)
    let fraction := w.mantissa.toNat % 10 ^ 18
    String.ofList (if fraction = 0 then whole
      else whole ++ '.' :: ((Numeral.write 10 fraction).leftpad 18 '0').rdropWhile (· == '0')) := by
  have hwhole : (Numeral.dropZeros 18 w.mantissa.toNat).2 /
      Nat.pow 10 (Numeral.dropZeros 18 w.mantissa.toNat).1 = w.mantissa.toNat / 10 ^ 18 :=
    Numeral.dropZeros_snd_div 18 w.mantissa.toNat
  dsimp only
  rw [text, Numeral.writePoint, hwhole, Numeral.lastDigits_dropZeros]
  by_cases hzero : w.mantissa.toNat % 10 ^ 18 = 0
  · rw [if_pos hzero, if_pos (Numeral.dropZeros_fst_eq_zero_iff.mpr hzero)]
  · rw [if_neg hzero, if_neg (mt Numeral.dropZeros_fst_eq_zero_iff.mp hzero),
      Numeral.leftpad_write hzero (Nat.mod_lt _ (by positivity)), Numeral.lastDigits_mod]

/-- The text of a wad is a plain decimal of at most eighteen places that denotes
the number exactly. -/
theorem exists_plainDecimal (w : Wad) :
    ∃ t : PlainDecimal, w.text = String.ofList t.text ∧ t.fraction.length ≤ 18 ∧
      t.value * 10 ^ 18 = w.mantissa.toNat := by
  let short := Numeral.dropZeros 18 w.mantissa.toNat
  have hplaces : short.1 ≤ 18 := Numeral.dropZeros_places_le 18 w.mantissa.toNat
  have hunits : short.2 * 10 ^ (18 - short.1) = w.mantissa.toNat :=
    Numeral.dropZeros_mul_pow 18 w.mantissa.toNat
  refine ⟨.ofUnits short.1 short.2 (Numeral.dropZeros_mod_ten 18 w.mantissa.toNat), ?_, ?_, ?_⟩
  · rw [PlainDecimal.text_ofUnits]
    rfl
  · rw [PlainDecimal.ofUnits, Numeral.length_lastDigits]
    exact hplaces
  · have hscale : (10 : ℚ) ^ 18 = 10 ^ short.1 * 10 ^ (18 - short.1) := by
      rw [← pow_add, Nat.add_sub_cancel' hplaces]
    rw [PlainDecimal.value_ofUnits, hscale, ← mul_assoc, div_mul_cancel₀ _ (by positivity),
      ← hunits]
    push_cast
    rfl

theorem eq_of_text_eq {w v : Wad} (htext : w.text = v.text) : w = v := by
  obtain ⟨t, ht, -, hvalue⟩ := exists_plainDecimal w
  obtain ⟨u, hu, -, hvalue'⟩ := exists_plainDecimal v
  rw [ht, hu, String.ofList_inj] at htext
  have hmantissa : (w.mantissa.toNat : ℚ) = v.mantissa.toNat := by
    rw [← hvalue, ← hvalue', PlainDecimal.text_injective htext]
  ext
  exact_mod_cast hmantissa

/-- The text of a wad is a plain decimal, with at most eighteen places behind the
point, and it denotes exactly the number that the wad is. Wads have the same text
only if they are equal. -/
theorem text_exact (w : Wad) :
    (∃ t : PlainDecimal, w.text = String.ofList t.text ∧ t.fraction.length ≤ 18 ∧
      t.value * 10 ^ 18 = w.mantissa.toNat) ∧
    ∀ v : Wad, w.text = v.text ↔ w = v := by
  refine ⟨exists_plainDecimal w, fun v => ⟨eq_of_text_eq, ?_⟩⟩
  rintro rfl
  rfl

example : text ⟨⟨1, by decide⟩⟩ = "0.000000000000000001" := by decide

end Wad

end MoneyMarket
