import NextOffer.Json.Value

/-! # Dotted paths

A path names one entry after another, with dots between the names. A walk ends without
a value at a missing or null entry and at anything that is no object. There are no
indices into arrays.
-/

namespace NextOffer

/-- The names of a path, split at every dot; names may be empty. -/
def Path.names (path : String) : List String :=
  (path.toList.splitOn '.').map String.ofList

namespace Json.Value

/-- Step into an entry that is present and not null. -/
def step? (value : Value) (name : String) : Option Value :=
  match value.get? name with
  | some .null => none
  | found => found

def walk? : Value → List String → Option Value
  | value, [] => some value
  | value, name :: rest => (value.step? name).bind (·.walk? rest)

end Json.Value

def Path.resolve? (context : Json.Value) (path : String) : Option Json.Value :=
  context.walk? (Path.names path)

end NextOffer
