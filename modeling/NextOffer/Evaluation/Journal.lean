import NextOffer.Evaluation.Basic
import NextOffer.Log.Record

/-! # The journal of an evaluation

The messages that an evaluation leaves in the log, in order. An evaluation that fails
leaves the messages up to the failure.
-/

namespace NextOffer

open Log

namespace Effect

def logger : String := "rule_studio.engine.effects"

/-- The message about a change of a score that lacks a field. There is none when the change
    has no text. -/
def incomplete (score : Option String) (delta : Option Number) : List Record :=
  let scoreText := (score.map Text.quoted).getD "None"
  let deltaText := (delta.map Number.text).getD "None"
  if delta.all Number.isWritable then
    [Record.debug logger (s!"Skipping incomplete scoreDelta effect: " ++
      s!"ScoreDeltaEffect(type='scoreDelta', score={scoreText}, delta={deltaText})")]
  else []

def notes : Effect → List Record
  | .scoreDelta (some score) (some delta) =>
      if score = "" then incomplete (some score) (some delta) else []
  | .scoreDelta score delta => incomplete score delta
  | _ => []

def journal (profile : Profile) : List Effect → List Record
  | [] => []
  | effect :: rest =>
      effect.notes ++
        match effect.apply profile with
        | .error _ => []
        | .ok applied => journal applied.profile rest

end Effect

namespace Rule

def logger : String := "rule_studio.engine.evaluator"

def firedNote (rule : Rule) (event : Event) (descriptions : List String) : Record :=
  Record.debug logger (s!"Rule {rule.id} fired on {event.kind.word}: " ++
    (Json.Value.strings descriptions).inspect)

/-- The message about a rule whose conditions do not hold. -/
def idleNote (rule : Rule) (event : Event) : Record :=
  Record.debug logger s!"Rule {rule.id} did not match {event.kind.word}."

def turnsJournal (event : Event) (profile : Profile) : List Rule → List Record
  | [] => []
  | rule :: rest =>
      match rule.turn event profile with
      | .ok none => rule.idleNote event :: turnsJournal event profile rest
      | .ok (some firing) =>
          Effect.journal profile rule.effects ++
            rule.firedNote event firing.descriptions ::
              turnsJournal event firing.profile rest
      | .error _ =>
          match Condition.allHold (evaluationContext profile event) rule.conditions with
          | .ok true => Effect.journal profile rule.effects
          | _ => []

/-- The messages of the turns for events one after another. -/
def eventsJournal (sorted : List Rule) (profile : Profile) : List Event → List Record
  | [] => []
  | event :: rest =>
      turnsJournal event profile (matching sorted event.kind) ++
        match runTurns event profile (matching sorted event.kind) with
        | .error _ => []
        | .ok (next, _) => eventsJournal sorted next rest

end Rule

/-- The messages of an evaluation, with a summary unless it failed. -/
def evaluationJournal (rules : List Rule) (profile : Profile) (events : List Event) :
    List Record :=
  let sorted := Rule.sortActive rules
  Rule.eventsJournal sorted profile events ++
    match Rule.runEvents sorted profile events with
    | .error _ => []
    | .ok (_, trace) => [Record.info Rule.logger
        (s!"Evaluated {events.length} event(s) against {sorted.length} active rule(s): " ++
          s!"{trace.length} firing(s).")]

end NextOffer
