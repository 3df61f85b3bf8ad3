/-! # Positional numerals

A natural number is written in a base up to sixteen with as few digits as
possible, letters in lower case. Reading takes letters of either case and any
number of leading zeros. Reading what was written gives the number back.
-/

namespace MoneyMarket.Numeral

/-- The value of a digit of the given base. -/
def digit? (base : Nat) (c : Char) : Option Nat :=
  let value :=
    if '0' ≤ c ∧ c ≤ '9' then c.toNat - '0'.toNat
    else if 'a' ≤ c ∧ c ≤ 'f' then c.toNat - 'a'.toNat + 10
    else if 'A' ≤ c ∧ c ≤ 'F' then c.toNat - 'A'.toNat + 10
    else base
  if value < base then some value else none

/-- The number a run of digits denotes, most significant digit first. The empty
run denotes zero; a character that is no digit of the base denotes nothing. -/
def read? (base : Nat) (digits : List Char) : Option Nat :=
  digits.foldlM (fun n c => (digit? base c).map (n * base + ·)) 0

/-- The shortest numeral of a number. -/
def write (base n : Nat) : List Char := Nat.toDigits base n

theorem digit?_digitChar {base d : Nat} (hbase : base ≤ 16) (hd : d < base) :
    digit? base d.digitChar = some d := by
  have hall : ∀ b ≤ 16, ∀ d < b, digit? b d.digitChar = some d := by decide
  exact hall base hbase d hd

theorem read?_append_singleton (base : Nat) (digits : List Char) (c : Char) :
    read? base (digits ++ [c]) =
      (read? base digits).bind fun n => (digit? base c).map (n * base + ·) := by
  simp only [read?, List.foldlM_append, List.foldlM_cons, List.foldlM_nil]
  cases List.foldlM (fun n c => (digit? base c).map (n * base + ·)) 0 digits with
  | none => rfl
  | some n => cases digit? base c <;> rfl

theorem read?_write {base : Nat} (hlow : 1 < base) (hhigh : base ≤ 16) (n : Nat) :
    read? base (write base n) = some n := by
  induction n using Nat.strongRecOn with
  | ind n ih =>
    by_cases hn : n < base
    · simp [write, Nat.toDigits_of_lt_base hn, read?, digit?_digitChar hhigh hn]
    · have hdiv : n / base < n := Nat.div_lt_self (by omega) hlow
      have hmod : n % base < base := Nat.mod_lt _ (by omega)
      rw [write, Nat.toDigits_of_base_le hlow (by omega), read?_append_singleton]
      have hprevious := ih (n / base) hdiv
      rw [write] at hprevious
      rw [hprevious, digit?_digitChar hhigh hmod]
      simp [Nat.div_add_mod']

theorem write_ne_nil {base : Nat} (hbase : 1 < base) (n : Nat) : write base n ≠ [] := by
  by_cases hn : n < base
  · simp [write, Nat.toDigits_of_lt_base hn]
  · simp [write, Nat.toDigits_of_base_le hbase (Nat.le_of_not_lt hn)]

end MoneyMarket.Numeral
