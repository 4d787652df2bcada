import NextOffer.Fault
import NextOffer.Json.Printer
import NextOffer.Simulation.Basic

/-! # Simulations as JSON

The report that is kept in a file, and the dump of a whole simulation. The dump holds
every field of every record; inside it, values without a finite number are kept as they
are, since scores may be infinite.
-/

namespace NextOffer

namespace TraceEntry

def toJson (spelling : Spelling) (entry : TraceEntry) : Json.Value :=
  .object [
    (spelling.pick "rule_id" "ruleId", .string entry.ruleId),
    (spelling.pick "rule_name" "ruleName", .string entry.ruleName),
    (spelling.pick "effect_description" "effectDescription", .string entry.effectDescription)]

end TraceEntry

namespace Product

def toJson (spelling : Spelling) (product : Product) : Json.Value :=
  .object [
    ("id", .string product.id),
    ("name", .string product.name),
    (spelling.pick "required_scores" "requiredScores", .ofNumbers product.requiredScores),
    (spelling.pick "weight_by_score" "weightByScore", .ofNumbers product.weightByScore),
    ("exclusions", .strings product.exclusions),
    ("active", .bool product.active)]

end Product

namespace Recommendation

def toJson (spelling : Spelling) (recommendation : Recommendation) : Json.Value :=
  .object [
    ("product", recommendation.product.toJson spelling),
    ("decision", .string recommendation.decision.word),
    ("rank", .int recommendation.rank),
    ("score", .number (.real recommendation.score)),
    ("why", .strings recommendation.why),
    (spelling.pick "score_breakdown" "scoreBreakdown",
      .ofNumbers recommendation.scoreBreakdown)]

def summary (recommendation : Recommendation) : Json.Value :=
  .object [
    ("rank", .int recommendation.rank),
    ("product_id", .string recommendation.product.id),
    ("product_name", .string recommendation.product.name),
    ("decision", .string recommendation.decision.word),
    ("score", .number (.real recommendation.score)),
    ("why", .strings recommendation.why),
    ("score_breakdown", .ofNumbers recommendation.scoreBreakdown)]

end Recommendation

namespace Simulation

def toJson (spelling : Spelling) (simulation : Simulation) : Json.Value :=
  .object [
    (spelling.pick "original_profile" "originalProfile", simulation.initial.toJson spelling),
    (spelling.pick "new_profile" "newProfile", simulation.final.toJson spelling),
    ("trace", .array (simulation.trace.map (TraceEntry.toJson spelling))),
    ("recommendations",
      .array (simulation.recommendations.map (Recommendation.toJson spelling))),
    ("narrative", .string simulation.narrative)]

/-- Levels of values inside one another that a dump of a profile has room for. -/
def dumpLevels : Nat := 255

/-- Both profiles have room in a dump of so many levels. -/
def fits (levels : Nat) (simulation : Simulation) : Bool :=
  simulation.initial.fits levels && simulation.final.fits levels

/-- The dump of a whole simulation, where its profiles stand one level down. -/
def dump (spelling : Spelling) (simulation : Simulation) : Except Fault Json.Value :=
  if simulation.fits (dumpLevels - 1) then .ok (simulation.toJson spelling)
  else .error .tooDeep

def reportVersion : String := "v1.0.0"

/-- The time at which a profile was last evaluated, in universal time. -/
def updatedText (profile : Profile) : Except Fault Json.Value :=
  match profile.lastUpdated with
  | none => .ok .null
  | some t =>
      match t.universalText? with
      | some text => .ok (.string text)
      | none => .error .timeOutOfRange

def report (simulation : Simulation) (label : String) : Except Fault Json.Value := do
  let updated ← updatedText simulation.final
  unless simulation.fits dumpLevels do throw .tooDeep
  return .object [
    ("schema_version", .string reportVersion),
    ("customer_id", .string simulation.final.customerId),
    ("generated_at", .string label),
    ("last_updated", updated),
    ("trace", .array (simulation.trace.map (TraceEntry.toJson .snake))),
    ("recommendations", .array (simulation.recommendations.map Recommendation.summary)),
    ("profile_before", simulation.initial.toJson .snake),
    ("profile_after", simulation.final.toJson .snake),
    ("narrative", .string simulation.narrative)]

end Simulation

end NextOffer
