import NextOffer.Fault
import NextOffer.Simulation.Basic

/-! # Batches of records

What a caller passes as a list of records may be something else; then nothing is
evaluated.
-/

namespace NextOffer

/-- A list of records, or a value that is none. -/
inductive Batch (α : Type u) where
  | items (records : List α)
  | other (value : Json.Value)

namespace Batch

variable {α : Type u}

/-- The records of an argument that has to be a list. -/
def list (argument : String) : Batch α → Except Fault (List α)
  | items records => .ok records
  | other value => .error (.batch (.listExpected argument value.kindName))

/-- The records one after another, each with a field that is read. An empty text or
    object has no items; others have texts as items, which have no fields. -/
def each (field : String) : Batch α → Except Fault (List α)
  | items records => .ok records
  | other (.string text) =>
      if text = "" then .ok [] else .error (.batch (.noField "str" field))
  | other (.object entries) =>
      if entries.isEmpty then .ok [] else .error (.batch (.noField "str" field))
  | other value => .error (.batch (.notIterable value.kindName))

end Batch

namespace Event

def exampleSet (name : String) : Except Fault (List Event) :=
  match examples.get? name with
  | some events => .ok events
  | none => .error (.unknownExample name)

end Event

def Decision.ofText (word : String) : Except Fault Decision :=
  match ofWord? word with
  | some decision => .ok decision
  | none => .error (.unknownDecision word)

/-- The value at a path inside a context, which has to be an object. -/
def Path.resolve (context : Json.Value) (path : String) : Except Fault (Option Json.Value) :=
  match context with
  | .object _ => .ok (resolve? context path)
  | other => .error (.contextExpected other.kindName)

/-- Whether all conditions hold in a context, which has to be an object as soon as there
    is a condition. -/
def Condition.allHoldIn (context : Json.Value) (conditions : Batch Condition) :
    Except Fault Bool := do
  let conditions ← conditions.each "source"
  match context, conditions with
  | _, [] => return true
  | .object _, conditions => allHold context conditions
  | other, _ => throw (.contextExpected other.kindName)

def evaluateBatches (rules : Batch Rule) (profile : Profile) (events : Batch Event)
    (now : Timestamp) : Except Fault Evaluation := do
  let rules ← rules.list "rules"
  let events ← events.list "events"
  evaluate rules profile events now

def recommendBatch (products : Batch Product) (profile : Profile) (precision : Int) :
    Except Fault (List Recommendation) := do
  let products ← products.list "products"
  Ranking.recommend products profile precision

/-- Run a simulation on batches. Products are looked at only after the evaluation. -/
def Simulation.runBatches (rules : Batch Rule) (products : Batch Product) (profile : Profile)
    (events : Batch Event) (now : Timestamp) (precision : Int) : Except Fault Simulation := do
  let rules ← rules.list "rules"
  let events ← events.list "events"
  let _ ← evaluate rules profile events now
  let products ← products.list "products"
  Simulation.run rules products profile events now precision

end NextOffer
