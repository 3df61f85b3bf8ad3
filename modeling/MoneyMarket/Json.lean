import MoneyMarket.Json.Numerals

/-! # JSON values

The tree that stored state, settings and events are written as. Members
of an object keep the order and the repetitions of the text they were read
from; which repetition counts is for the reader of a record to say.
-/

namespace MoneyMarket

/-- A JSON value. -/
inductive Json where
  | null
  | bool (value : Bool)
  /-- A number without fraction and exponent that fits 64 bits, signed or not. -/
  | int (value : Int)
  /-- Any other number. -/
  | real (literal : Json.Numerals)
  | str (value : String)
  /-- A string with an escape for half of a surrogate pair: it has no text. -/
  | garbled
  | arr (items : List Json)
  | obj (members : List (String × Json))
  deriving Inhabited

namespace Json

/-- The string in a value, if it is one. -/
def asStr? : Json → Option String
  | .str s => some s
  | _ => none

/-- The Boolean in a value, if it is one. -/
def asBool? : Json → Option Bool
  | .bool b => some b
  | _ => none

/-- The unsigned 64-bit number in a value, if it is one. -/
def asUInt64? : Json → Option UInt64
  | .int n => if 0 ≤ n ∧ n < UInt64.size then some (UInt64.ofNat n.toNat) else none
  | _ => none

/-- The items of a value, if it is an array. -/
def asArr? : Json → Option (List Json)
  | .arr items => some items
  | _ => none

/-- The JSON number of an unsigned 64-bit number. -/
def ofUInt64 (n : UInt64) : Json := .int n.toNat

/-- `null` for nothing. -/
def ofOption {α : Type} (encode : α → Json) : Option α → Json
  | none => .null
  | some a => encode a

@[simp]
theorem asUInt64?_ofUInt64 (n : UInt64) : (ofUInt64 n).asUInt64? = some n := by
  have hn := n.toNat_lt
  simp only [ofUInt64, asUInt64?, Int.toNat_natCast, UInt64.ofNat_toNat, UInt64.size]
  exact if_pos (by omega)

end Json

end MoneyMarket
