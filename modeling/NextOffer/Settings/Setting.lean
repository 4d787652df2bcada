import NextOffer.Json.Display
import NextOffer.Json.Value

/-! # Settings as nested tables

Layers of settings are merged table by table; anything that is no table replaces what
stood before.
-/

namespace NextOffer

/-- A kind of date and time in a settings file. -/
inductive MomentKind where
  | dateTime
  | date
  | time
  deriving DecidableEq, Repr

inductive Setting where
  /-- A text, number, truth value or null. -/
  | plain (value : Json.Value)
  /-- A date or time, which no setting takes. -/
  | moment (kind : MomentKind)
  | list (items : List Setting)
  | table (entries : List (String × Setting))
  deriving Inhabited

namespace MomentKind

def name : MomentKind → String
  | dateTime => "datetime.datetime"
  | date => "datetime.date"
  | time => "datetime.time"

end MomentKind

namespace Setting

def text (value : String) : Setting := .plain (.string value)

def kindName : Setting → String
  | .plain value => value.kindName
  | .moment kind => kind.name
  | .list _ => "list"
  | .table _ => "dict"

mutual

def ofJson : Json.Value → Setting
  | .array items => .list (ofItems items)
  | .object entries => .table (ofEntries entries)
  | value => .plain value

def ofItems : List Json.Value → List Setting
  | [] => []
  | item :: rest => ofJson item :: ofItems rest

def ofEntries : List (String × Json.Value) → List (String × Setting)
  | [] => []
  | (name, value) :: rest => (name, ofJson value) :: ofEntries rest

end

mutual

/-- The setting as a JSON value. A date or time, which fits no field, becomes null. -/
def toJson : Setting → Json.Value
  | .plain value => value
  | .moment _ => .null
  | .list items => .array (toItems items)
  | .table entries => .object (toEntries entries)

def toItems : List Setting → List Json.Value
  | [] => []
  | item :: rest => toJson item :: toItems rest

def toEntries : List (String × Setting) → List (String × Json.Value)
  | [] => []
  | (name, value) :: rest => (name, toJson value) :: toEntries rest

end

mutual

/-- A value over an older one: two tables are merged, anything else replaces. -/
def mergeOver (old : Option Setting) : Setting → Setting
  | .table entries =>
      match old with
      | some (.table base) => .table (merge base entries)
      | _ => .table entries
  | value => value

/-- A table over a base. Names of the base keep their places, new ones follow. -/
def merge (base : Fields Setting) : List (String × Setting) → Fields Setting
  | [] => base
  | (name, value) :: rest => merge (base.set name (mergeOver (base.get? name) value)) rest

end

end Setting

end NextOffer
