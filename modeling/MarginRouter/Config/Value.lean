/-!
# Documents

What a configuration is read from, whatever it is written in: values, lists of values, and records of named values.
-/

namespace MarginRouter.Config

/-- The forms in which a document may be written. They differ in how a record is given by a list, and a choice by a record. -/
inductive Format where
  | json
  | toml
  deriving DecidableEq, Repr

/-- A value of a document. -/
inductive Value where
  | null
  | bool (b : Bool)
  | integer (n : Int)
  /-- A number with a fraction or a power of ten, which no setting takes. -/
  | fraction
  /-- A number that is too large for any kind of number, or one with letters among its digits. -/
  | badNumber
  | text (s : String)
  /-- A date, a time of day, or both. -/
  | moment
  | list (items : List Value)
  | record (fields : List (String × Value))
  deriving Inhabited

/-- The fields found in a value that should hold a record. -/
abbrev Fields := String → Option Value

namespace Value

mutual

/-- There is no bad number in a value. -/
def isReadable : Value → Bool
  | .badNumber => false
  | .list items => itemsReadable items
  | .record fields => fieldsReadable fields
  | _ => true

def itemsReadable : List Value → Bool
  | [] => true
  | v :: items => v.isReadable && itemsReadable items

def fieldsReadable : List (String × Value) → Bool
  | [] => true
  | (_, v) :: fields => v.isReadable && fieldsReadable fields

end

/-- The fields of a record with these names. Fields of other names are passed over, as long as they are readable. A date or a
time is a record with none of the names. A record may also be written as the list of its fields, in their order: then JSON has no
more items than names, and what TOML has behind the last name is not looked at. -/
def fields? (format : Format) (names : List String) : Value → Option Fields
  | .record fields =>
    if fields.all fun (name, v) => names.contains name || v.isReadable then some fun name => fields.lookup name else none
  | .moment => some fun _ => none
  | .list items =>
    if format = .json ∧ names.length < items.length then none else some fun name => (names.zip items).lookup name
  | _ => none

/-- What stands for nothing, where a format asks for a value. -/
def isNothing : Format → Value → Bool
  | .json, .null => true
  | .toml, .list [] => true
  | .toml, .record [] => true
  | _, _ => false

/-- One of the names of a table: its text, or a record with nothing under that name alone. -/
def choice? {α : Type} (format : Format) (choices : List (String × α)) : Value → Option α
  | .text name => choices.lookup name
  | .record [(name, v)] => if v.isNothing format then choices.lookup name else none
  | _ => none

def bool? : Value → Option Bool
  | .bool b => some b
  | _ => none

def text? : Value → Option String
  | .text s => some s
  | _ => none

/-- A whole number from `low` to `high`. -/
def integer? (low high : Int) : Value → Option Int
  | .integer n => if low ≤ n ∧ n ≤ high then some n else none
  | _ => none

/-- A whole number up to `high`. -/
def natural? (high : Nat) (v : Value) : Option Nat :=
  (v.integer? 0 high).map Int.toNat

/-- A list whose items are all read the same way. -/
def list? {α : Type} (read : Value → Option α) : Value → Option (List α)
  | .list items => items.mapM read
  | _ => none

end Value

namespace Fields

variable {α : Type}

/-- A field that must be there. -/
def required (f : Fields) (name : String) (read : Value → Option α) : Option α :=
  (f name).bind read

/-- A field that has a default. -/
def optional (f : Fields) (name : String) (default : α) (read : Value → Option α) : Option α :=
  match f name with
  | none => some default
  | some v => read v

end Fields

end MarginRouter.Config
