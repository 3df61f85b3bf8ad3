import MoneyMarket.Json.Record

/-! # Vocabularies

A closed set of alternatives, each known by one word. Words are matched
exactly.
-/

namespace MoneyMarket

/-- A type with finitely many values, each with a word of its own. -/
class Vocabulary (α : Type) where
  all : List α
  word : α → String

/-- The error of a text that is no word of a vocabulary. -/
inductive UnknownWord where
  | unknownWord
  deriving DecidableEq

/-- The wording of the error. -/
def UnknownWord.message : UnknownWord → String
  | .unknownWord => "Matching variant not found"

namespace Vocabulary

variable {α : Type} [Vocabulary α]

/-- The value a word stands for. -/
def ofWord (s : String) : Except UnknownWord α :=
  match all.find? fun a : α => word a = s with
  | some a => .ok a
  | none => .error .unknownWord

/-- Stored values are choices that hold nothing. -/
def ofJson? (j : Json) : Option α := do
  let (name, held) ← j.choice?
  if Json.holdsNothing held then (ofWord name).toOption else none

/-- The stored form of a value is its word. -/
def toJson (a : α) : Json := .str (word a)

end Vocabulary

instance : Vocabulary ArithmeticError where
  all := [.overflow, .underflow, .divideByZero]
  word
    | .overflow => "Overflow"
    | .underflow => "Underflow"
    | .divideByZero => "DivideByZero"

end MoneyMarket
