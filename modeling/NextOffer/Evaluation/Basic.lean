import NextOffer.Condition.Comparison
import NextOffer.Evaluation.Effect
import NextOffer.Path
import NextOffer.Recommendation

/-! # Evaluating rules

Events are taken one after another. For each, the active rules of its kind take their
turns by falling priority; a rule whose conditions all hold applies its effects before
the next rule looks at the profile. Every rule that fires leaves one trace entry.
-/

namespace NextOffer

def evaluationContext (profile : Profile) (event : Event) : Json.Value :=
  .object [
    ("event", .object event.payload),
    ("profile", .object [
      ("static", .object profile.staticData),
      ("behavioral", .object profile.behavioral),
      ("scores", .ofNumbers profile.scores),
      ("tags", .strings profile.tags)])]

namespace Condition

def holds (context : Json.Value) (condition : Condition) : Except ArithmeticFault Bool :=
  satisfies (Path.resolve? context condition.source) condition.sign condition.target

/-- Whether all conditions hold; later ones are not looked at once one fails. -/
def allHold (context : Json.Value) : List Condition → Except ArithmeticFault Bool
  | [] => .ok true
  | condition :: rest => do
      if ← condition.holds context then allHold context rest else return false

end Condition

structure Firing where
  profile : Profile
  descriptions : List String

namespace Rule

/-- The active rules by falling priority; equal priorities keep their order. -/
def sortActive (rules : List Rule) : List Rule :=
  (rules.filter isActive).mergeSort fun a b => decide (b.priority ≤ a.priority)

/-- The rules for a kind of event, in their order. -/
def matching (rules : List Rule) (kind : EventKind) : List Rule :=
  rules.filter fun rule => rule.event == kind

/-- One turn of a rule: nothing, unless its conditions hold. -/
def turn (rule : Rule) (event : Event) (profile : Profile) :
    Except ArithmeticFault (Option Firing) := do
  if ← Condition.allHold (evaluationContext profile event) rule.conditions then
    let (final, descriptions) ← Effect.applyAll profile rule.effects
    return some ⟨final, descriptions⟩
  else return none

def entry (rule : Rule) (firing : Firing) : TraceEntry :=
  ⟨rule.id, rule.name, "; ".intercalate firing.descriptions⟩

/-- The turns of rules for one event, in order. -/
def runTurns (event : Event) (profile : Profile) :
    List Rule → Except ArithmeticFault (Profile × List TraceEntry)
  | [] => .ok (profile, [])
  | rule :: rest => do
      match ← rule.turn event profile with
      | none => runTurns event profile rest
      | some firing =>
          let (final, trace) ← runTurns event firing.profile rest
          return (final, rule.entry firing :: trace)

/-- The turns of sorted rules for events one after another. -/
def runEvents (sorted : List Rule) (profile : Profile) :
    List Event → Except ArithmeticFault (Profile × List TraceEntry)
  | [] => .ok (profile, [])
  | event :: rest => do
      let (next, trace) ← runTurns event profile (matching sorted event.kind)
      let (final, later) ← runEvents sorted next rest
      return (final, trace ++ later)

end Rule

/-- A profile after a batch of events, and the rules that fired. -/
structure Evaluation where
  profile : Profile
  trace : List TraceEntry

/-- Evaluate a batch of events, and stamp the profile with a time. -/
def evaluate (rules : List Rule) (profile : Profile) (events : List Event) (now : Timestamp) :
    Except ArithmeticFault Evaluation := do
  let (final, trace) ← Rule.runEvents (Rule.sortActive rules) profile events
  return ⟨{ final with lastUpdated := some now }, trace⟩

end NextOffer
