import MoneyMarket.Numeral

/-! # Amounts

An amount is a natural number of 256 bits. Arithmetic is exact or refused:
a sum or product that does not fit overflows, a difference that would be
negative underflows, and nothing divides by zero. Quotients drop the
remainder. Amounts are stored as hexadecimal text behind `0x` and shown to
people in decimal.
-/

namespace MoneyMarket

/-- Why an arithmetic step has no result. -/
inductive ArithmeticError where
  | overflow
  | underflow
  | divideByZero
  deriving DecidableEq, Repr

/-- The wording of an arithmetic error. -/
def ArithmeticError.message : ArithmeticError → String
  | .overflow => "arithmetic overflow"
  | .underflow => "arithmetic underflow"
  | .divideByZero => "division by zero"

/-- A natural number below `2 ^ 256`. -/
@[ext]
structure Amount where
  toNat : Nat
  toNat_lt : toNat < Nat.pow 2 256
  deriving DecidableEq

namespace Amount

instance : LE Amount := ⟨fun a b => a.toNat ≤ b.toNat⟩
instance : LT Amount := ⟨fun a b => a.toNat < b.toNat⟩
instance : DecidableLE Amount := fun a b => inferInstanceAs (Decidable (a.toNat ≤ b.toNat))
instance : DecidableLT Amount := fun a b => inferInstanceAs (Decidable (a.toNat < b.toNat))
instance : Min Amount := ⟨fun a b => if a ≤ b then a else b⟩
instance : Max Amount := ⟨fun a b => if a ≤ b then b else a⟩
instance : Inhabited Amount := ⟨⟨0, by decide⟩⟩
instance : OfNat Amount 0 := ⟨⟨0, by decide⟩⟩
instance : OfNat Amount 1 := ⟨⟨1, by decide⟩⟩

theorem le_def {a b : Amount} : a ≤ b ↔ a.toNat ≤ b.toNat := Iff.rfl

theorem lt_def {a b : Amount} : a < b ↔ a.toNat < b.toNat := Iff.rfl

@[simp]
theorem toNat_zero : (0 : Amount).toNat = 0 := rfl

@[simp]
theorem toNat_one : (1 : Amount).toNat = 1 := rfl

theorem eq_zero_iff {a : Amount} : a = 0 ↔ a.toNat = 0 := Amount.ext_iff

/-- The amount of a 64-bit number. -/
def ofUInt64 (n : UInt64) : Amount := ⟨n.toNat, Nat.lt_trans n.toNat_lt (by decide)⟩

@[simp]
theorem toNat_ofUInt64 (n : UInt64) : (ofUInt64 n).toNat = n.toNat := rfl

/-- The amount of a number, unless it overflows. -/
def ofNat (n : Nat) : Except ArithmeticError Amount :=
  if h : n < Nat.pow 2 256 then .ok ⟨n, h⟩ else .error .overflow

theorem ofNat_eq_ok {n : Nat} {a : Amount} : ofNat n = .ok a ↔ n = a.toNat := by
  unfold ofNat
  split
  · simp [Amount.ext_iff]
  · simp only [reduceCtorEq, false_iff]
    have := a.toNat_lt
    omega

theorem ofNat_eq_error {n : Nat} {e : ArithmeticError} :
    ofNat n = .error e ↔ Nat.pow 2 256 ≤ n ∧ e = .overflow := by
  unfold ofNat
  split
  · simp only [reduceCtorEq, false_iff]
    omega
  · simp only [Except.error.injEq]
    constructor
    · rintro rfl
      exact ⟨by omega, rfl⟩
    · exact fun h => h.2.symm

/-- The sum, unless it overflows. -/
def add (a b : Amount) : Except ArithmeticError Amount := ofNat (a.toNat + b.toNat)

/-- The difference, unless it would be negative. -/
def sub (a b : Amount) : Except ArithmeticError Amount :=
  if b ≤ a then .ok ⟨a.toNat - b.toNat, Nat.lt_of_le_of_lt (Nat.sub_le ..) a.toNat_lt⟩
  else .error .underflow

/-- The product, unless it overflows. -/
def mul (a b : Amount) : Except ArithmeticError Amount := ofNat (a.toNat * b.toNat)

/-- The quotient without the remainder, for a divisor known to be a number. -/
def quotient (a : Amount) (n : Nat) : Amount :=
  ⟨a.toNat / n, Nat.lt_of_le_of_lt (Nat.div_le_self ..) a.toNat_lt⟩

/-- The quotient without the remainder, unless the divisor is zero. -/
def div (a b : Amount) : Except ArithmeticError Amount :=
  if b = 0 then .error .divideByZero else .ok (a.quotient b.toNat)

@[simp]
theorem toNat_quotient (a : Amount) (n : Nat) : (a.quotient n).toNat = a.toNat / n := rfl

theorem add_eq_ok {a b c : Amount} : a.add b = .ok c ↔ a.toNat + b.toNat = c.toNat := ofNat_eq_ok

theorem mul_eq_ok {a b c : Amount} : a.mul b = .ok c ↔ a.toNat * b.toNat = c.toNat := ofNat_eq_ok

theorem sub_eq_ok {a b c : Amount} : a.sub b = .ok c ↔ a.toNat = b.toNat + c.toNat := by
  unfold sub
  split
  next h =>
    rw [le_def] at h
    simp only [Except.ok.injEq, Amount.ext_iff]
    omega
  next h =>
    rw [le_def] at h
    simp only [reduceCtorEq, false_iff]
    omega

theorem div_eq_ok {a b c : Amount} :
    a.div b = .ok c ↔ b.toNat ≠ 0 ∧ a.toNat / b.toNat = c.toNat := by
  unfold div
  split
  next h => simp [h]
  next h =>
    rw [eq_zero_iff] at h
    simp [h, Amount.ext_iff]

/-- How far an amount is above another, zero if it is not. -/
def excess (a b : Amount) : Amount :=
  ⟨a.toNat - b.toNat, Nat.lt_of_le_of_lt (Nat.sub_le ..) a.toNat_lt⟩

@[simp]
theorem toNat_excess (a b : Amount) : (a.excess b).toNat = a.toNat - b.toNat := rfl

/-- The largest amount. -/
def largest : Amount := ⟨Nat.pow 2 256 - 1, by decide⟩

/-- The decimal text shown to people. -/
def text (a : Amount) : String := String.ofList (Numeral.write 10 a.toNat)

/-- The stored text: `0x` and the shortest lower-case hexadecimal numeral. -/
def hex (a : Amount) : String := String.ofList ('0' :: 'x' :: Numeral.write 16 a.toNat)

/-- Reads stored text: up to sixty-four characters, with or without `0x` in
front, that are hexadecimal digits and blanks. The digits pair up to bytes,
and only the first one may be a byte of its own, in a text of odd length; with
an odd number of blanks the last digit has no partner and is dropped. -/
def ofHex? (s : String) : Option Amount :=
  let written :=
    match s.toList with
    | '0' :: 'x' :: written => written
    | written => written
  let digits := written.filter (!·.isWhitespace)
  if written.isEmpty || 64 < written.length then none
  else
    (Numeral.read? 16 digits).bind fun n =>
      (ofNat (if (written.length - digits.length) % 2 = 0 then n else n / 16)).toOption

end Amount

end MoneyMarket
