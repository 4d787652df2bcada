import NextOffer.Fields
import NextOffer.Number

/-! # JSON values

Objects keep the order of their entries, and numbers their kind. A value that holds an
integer with too many digits cannot be written.
-/

namespace NextOffer.Json

inductive Value where
  | null
  | bool (value : Bool)
  | number (value : Number)
  | string (text : String)
  | array (items : List Value)
  | object (entries : List (String × Value))
  deriving Inhabited

namespace Value

def int (n : Int) : Value := .number (.int n)

def strings (texts : List String) : Value := .array (texts.map .string)

def ofNumbers (entries : Fields Number) : Value := .object (entries.mapValues .number)

/-- Null, false, zero, and everything that is empty. -/
def isVoid : Value → Bool
  | .null => true
  | .bool value => !value
  | .number x => x.isZero
  | .string text => text.isEmpty
  | .array items => items.isEmpty
  | .object entries => entries.isEmpty

/-- The entry of an object; other values have none. -/
def get? : Value → String → Option Value
  | .object entries, name => Fields.get? entries name
  | _, _ => none

mutual

/-- The number of values inside one another, which is one for a value without others. -/
def height : Value → Nat
  | .array items => 1 + itemsHeight items
  | .object entries => 1 + entriesHeight entries
  | _ => 1

def itemsHeight : List Value → Nat
  | [] => 0
  | item :: rest => max (height item) (itemsHeight rest)

def entriesHeight : List (String × Value) → Nat
  | [] => 0
  | (_, value) :: rest => max (height value) (entriesHeight rest)

end

mutual

/-- Whether every number in a value can be written. -/
def isWritable : Value → Bool
  | .number x => x.isWritable
  | .array items => itemsWritable items
  | .object entries => entriesWritable entries
  | _ => true

def itemsWritable : List Value → Bool
  | [] => true
  | item :: rest => isWritable item && itemsWritable rest

def entriesWritable : List (String × Value) → Bool
  | [] => true
  | (_, value) :: rest => isWritable value && entriesWritable rest

end

mutual

/-- The same value with the entries of every object sorted by name. -/
def sorted : Value → Value
  | .array items => .array (sortedItems items)
  | .object entries =>
      .object ((sortedEntries entries).mergeSort fun a b => decide (a.1 ≤ b.1))
  | value => value

def sortedItems : List Value → List Value
  | [] => []
  | item :: rest => sorted item :: sortedItems rest

def sortedEntries : List (String × Value) → List (String × Value)
  | [] => []
  | (name, value) :: rest => (name, sorted value) :: sortedEntries rest

end

end Value

end NextOffer.Json
