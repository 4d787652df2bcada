import NextOffer.Schema.Reader

/-! # Customer profiles

Slow attributes and counters come from outside; scores and tags change with rules.
-/

namespace NextOffer

structure Profile where
  customerId : String
  staticData : Fields Json.Value := []
  behavioral : Fields Json.Value := []
  scores : Fields Number := []
  /-- Labels without duplicates, in the order in which they were added. -/
  tags : List String := []
  lastUpdated : Option Timestamp := none

namespace Profile

/-- The value of a score. Absent scores, and zeros of any kind, read as the integer 0. -/
def score (profile : Profile) (name : String) : Number :=
  match profile.scores.get? name with
  | none => .int 0
  | some x => if x.isZero then .int 0 else x

def hasTag (profile : Profile) (tag : String) : Bool := profile.tags.contains tag

open Schema

/-- Read a profile; tags are kept once, at their first place. -/
def ofEntries (entries : Fields Json.Value) : Checked Profile :=
  Profile.mk
    <$> Reader.required entries ⟨"customer_id", "customerId"⟩ Reader.text
    <*> Reader.optional entries ⟨"static_data", "staticData"⟩ [] (Reader.mapping Reader.anything)
    <*> Reader.optional entries (.plain "behavioral") [] (Reader.mapping Reader.anything)
    <*> Reader.optional entries (.plain "scores") [] (Reader.mapping Reader.number)
    <*> (List.eraseDups <$> Reader.optional entries (.plain "tags") [] (Reader.list Reader.text))
    <*> Reader.optional entries ⟨"last_updated", "lastUpdated"⟩ none (Reader.nullable Reader.moment)

def reader : Reader Profile := Reader.record "Profile" ofEntries

end Profile

inductive Spelling where
  /-- `customer_id` -/
  | snake
  /-- `customerId` -/
  | camel
  deriving DecidableEq, Repr

def Spelling.pick (spelling : Spelling) (snake camel : String) : String :=
  match spelling with
  | .snake => snake
  | .camel => camel

namespace Json.Value

mutual

/-- The value without NaN and infinities, which become null. -/
def finite : Value → Value
  | .number (.real x) => if x.isFinite then .number (.real x) else .null
  | .array items => .array (finiteItems items)
  | .object entries => .object (finiteEntries entries)
  | value => value

def finiteItems : List Value → List Value
  | [] => []
  | item :: rest => finite item :: finiteItems rest

def finiteEntries : List (String × Value) → List (String × Value)
  | [] => []
  | (name, value) :: rest => (name, finite value) :: finiteEntries rest

end

end Json.Value

namespace Profile

/-- No attribute or counter is higher than so many levels. -/
def fits (levels : Nat) (profile : Profile) : Bool :=
  max (Json.Value.entriesHeight profile.staticData)
    (Json.Value.entriesHeight profile.behavioral) ≤ levels

def toJson (spelling : Spelling) (profile : Profile) : Json.Value :=
  .object [
    (spelling.pick "customer_id" "customerId", .string profile.customerId),
    (spelling.pick "static_data" "staticData", .finite (.object profile.staticData)),
    ("behavioral", .finite (.object profile.behavioral)),
    ("scores", .ofNumbers profile.scores),
    ("tags", .strings profile.tags),
    (spelling.pick "last_updated" "lastUpdated",
      match profile.lastUpdated with
      | none => .null
      | some t => .string t.jsonText)]

end Profile

end NextOffer
