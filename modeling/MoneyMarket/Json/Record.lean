import MoneyMarket.Json
import MoneyMarket.Amount
import MoneyMarket.Decimal.Shortest
import MoneyMarket.Registry
import MoneyMarket.Wad

/-! # Records and choices in JSON

A record is an object: unknown members are ignored, and a known one must not
occur twice. It may also be an array of its fields in their order, with none
too many. A choice between alternatives is a bare name for an alternative that
holds nothing, and otherwise an object with the name as its only key.
-/

namespace MoneyMarket.Json

/-- The fields of a record that were given. -/
structure Record where
  /-- Whether they were given by position. -/
  positional : Bool
  fields : List (String × Json)

/-- The given ones among the fields of the given names. -/
def record? (names : List String) : Json → Option Record
  | .obj members =>
    let known := members.filter fun m => names.contains m.1
    if (known.map Prod.fst).Nodup then some ⟨false, known⟩ else none
  | .arr items => if items.length ≤ names.length then some ⟨true, names.zip items⟩ else none
  | _ => none

namespace Record

variable {α : Type}

/-- A field, if it was given. -/
def find? (r : Record) (name : String) : Option Json := r.fields.lookup name

/-- A field that has to be given. -/
def required? (r : Record) (name : String) (decode : Json → Option α) : Option α :=
  (r.find? name).bind decode

/-- A field with a default. -/
def defaulted? (r : Record) (name : String) (decode : Json → Option α) (default : α) :
    Option α :=
  match r.find? name with
  | none => some default
  | some value => decode value

/-- A field that may be missing or `null`; only by name may it be missing. -/
def optional? (r : Record) (name : String) (decode : Json → Option α) : Option (Option α) :=
  match r.find? name with
  | none => if r.positional then none else some none
  | some .null => some none
  | some value => (decode value).map some

end Record

/-- The name of the chosen alternative, and what it holds, if anything. -/
def choice? : Json → Option (String × Option Json)
  | .str name => some (name, none)
  | .obj [(name, value)] => some (name, some value)
  | _ => none

/-- Whether an alternative that holds nothing was chosen properly. -/
def holdsNothing : Option Json → Bool
  | none => true
  | some .null => true
  | some _ => false

/-- The members of an object given by name; no other form. -/
def namedOnly? : Option Json → Option Json
  | some (.obj members) => some (.obj members)
  | _ => none

/-- The alternative that a record names in its member `tag`, or in its first
position, and the record of the other fields. -/
def tagged? (tag : String) : Json → Option (String × Json)
  | .obj members =>
    match members.filter fun m => m.1 = tag with
    | [(_, .str name)] => some (name, .obj (members.filter fun m => m.1 ≠ tag))
    | _ => none
  | .arr (.str name :: items) => some (name, .arr items)
  | _ => none

/-- An amount is stored as hexadecimal text. -/
def asAmount? (j : Json) : Option Amount := j.asStr?.bind Amount.ofHex?

/-- A wad is stored as its mantissa. -/
def asWad? (j : Json) : Option Wad := (j.asAmount?).map Wad.mk

/-- A decimal is text or a number. -/
def asDecimal? : Json → Option Decimal
  | .str s => Decimal.ofText? s
  | .int n => Decimal.ofInt? n
  | .real literal => literal.float?.bind Decimal.ofFloat?
  | _ => none

/-- A name is its text. -/
def asName? {ι : Type} [Name ι] (j : Json) : Option ι := j.asStr?.map Name.ofText

def ofAmount (a : Amount) : Json := .str a.hex

def ofWad (w : Wad) : Json := ofAmount w.mantissa

def ofDecimal (d : Decimal) : Json := .str d.text

def ofName {ι : Type} [Name ι] (a : ι) : Json := .str (Name.text a)

/-- A registry is an object with the names as keys. -/
def asRegistryOf? {ι α : Type} [Name ι] [DecidableEq ι] (decode : Json → Option α) :
    Json → Option (Registry ι α)
  | .obj members =>
    (members.mapM fun m => (decode m.2).map (Name.ofText m.1, ·)).map Registry.ofList
  | _ => none

def ofRegistry {ι α : Type} [Name ι] (encode : α → Json) (r : Registry ι α) : Json :=
  .obj (r.entries.map fun e => (Name.text e.1, encode e.2))

end MoneyMarket.Json
