import NextOffer.Condition.Comparison
import NextOffer.Evaluation.Effect

/-! # Previews of rules

A rule in one line, for authors who review it before publication. There is no preview when
an integer of the rule has too many digits.
-/

namespace NextOffer

/-- A literal as compact JSON; a whole floating point value reads like an integer. -/
def literalText : Json.Value → Except ArithmeticFault String
  | .number (.real x) =>
      if x.isIntegral then Json.Form.compact.render (.int x.truncate)
      else Json.Form.compact.render (.number (.real x))
  | value => Json.Form.compact.render value

namespace Condition

/-- The last name of a path; the whole path when that name is empty. -/
def shortSource (source : String) : String :=
  let last := ((source.toList.splitOn '.').getLast?).getD []
  if last = [] then source else String.ofList last

def preview (condition : Condition) : Except ArithmeticFault String := do
  let literal ← literalText condition.target
  return s!"{shortSource condition.source} {condition.sign} {literal}"

end Condition

namespace EventKind

/-- A kind of event in small letters, its first underscore a blank. -/
def phrase (kind : EventKind) : String :=
  let chars := kind.word.toList
  let head := chars.takeWhile (· != '_')
  String.ofList (Text.lower (head ++
    match chars.drop head.length with
    | [] => []
    | _ :: rest => ' ' :: rest))

end EventKind

namespace Rule

def incompletePreview : String := "Complete the rule configuration to see preview..."

def preview (rule : Rule) : Except ArithmeticFault String :=
  if rule.conditions = [] ∨ rule.effects = [] then .ok incompletePreview
  else do
    let conditions ← rule.conditions.mapM Condition.preview
    let effects ← rule.effects.mapM Effect.describe
    let given := " and ".intercalate conditions
    let done := ", ".intercalate (effects.filter (· ≠ ""))
    return s!"When **{rule.event.phrase}** and {given} → {done}"

end Rule

end NextOffer
