import NextOffer.ProfileDiff
import NextOffer.Recommendation
import NextOffer.Text.Columns

/-! # Tables for terminals

Every table has a title and rows of fixed width, or a line in brackets when there is
nothing to show.
-/

namespace NextOffer.Tables

open Text

/-- Cells of a row behind two blanks, with two blanks between them. -/
def row (cells : List String) : String := "  " ++ "  ".intercalate cells

/-- A rule as wide as a header, behind its two leading blanks. -/
def underline (header : String) : String :=
  "  " ++ String.ofList (List.replicate (header.length - 2) '-')

def traceHeader : String := row [right 3 "#", left 24 "Rule", left 36 "Name", "Effects"]

def traceRow (number : Nat) (entry : TraceEntry) : String :=
  row [right 3 (toString number), left 24 (cut 24 entry.ruleId),
    left 36 (cut 36 entry.ruleName),
    if entry.effectDescription = "" then "(no changes)" else entry.effectDescription]

/-- Rules that fired, numbered from `number` on. -/
def traceRows : Nat → List TraceEntry → List String
  | _, [] => []
  | number, entry :: rest => traceRow number entry :: traceRows (number + 1) rest

def trace (entries : List TraceEntry) : String :=
  unlines ("" :: "=== Rule Trace ===" ::
    if entries = [] then ["  (no rules triggered)"]
    else traceHeader :: underline traceHeader :: traceRows 1 entries)

/-- A score before, and if it changed also after with the change. Everything is computed
    only when the line comes to it. -/
def scoreLine (before after : Profile) (name : String) : Except ArithmeticFault String := do
  let start := s!"    {left 28 name}  {right 8 (← (before.score name).plain)}"
  let change ← ScoreChange.of before after name
  if change.changed then
    let sign := if Number.lt 0 change.delta then "+" else ""
    return start ++ s!" -> {left 8 (← change.after.plain)} ({sign}{← change.delta.plain})"
  else return start

def scoreLines (before after : Profile) : Except ArithmeticFault (List String) :=
  let names := ProfileDiff.scoreNames before after
  if names.isEmpty then .ok ["    (no scores)"] else names.mapM (scoreLine before after)

def tagLines (diff : ProfileDiff) : List String :=
  if diff.added.isEmpty && diff.removed.isEmpty && diff.unchanged.isEmpty then ["    (no tags)"]
  else
    diff.added.map (fun line => s!"    + {line}") ++
      diff.removed.map (fun line => s!"    - {line}") ++
      diff.unchanged.map (fun line => s!"      {line}")

/-- The comparison of two profiles of a customer, who may be left out. There is none when a
    change of a score does not exist or a number to be shown has no text. -/
def profileDiff (before after : Profile) (customerId : String) :
    Except ArithmeticFault String := do
  let title := if customerId = "" then "" else s!" ({customerId})"
  let scores ← scoreLines before after
  let diff ← ProfileDiff.of before after
  return unlines (["", s!"=== Profile Changes{title} ===", "  Scores:"] ++ scores ++
    "  Tags:" :: tagLines diff)

def rankingHeader : String :=
  row [right 4 "Rank", left 28 "Product", right 8 "Decision", right 8 "Score"]

def rankingRow (recommendation : Recommendation) : String :=
  row [right 4 (toString recommendation.rank), left 28 (cut 28 recommendation.product.name),
    right 8 recommendation.decision.word,
    right 8 (String.ofList (recommendation.score.fixed 2))]

/-- A ranked product with its reasons, if they are wanted. -/
def rankingLines (showWhy : Bool) (recommendation : Recommendation) : List String :=
  rankingRow recommendation ::
    if showWhy then recommendation.why.map (fun line => s!"          {line}") else []

def ranking (recommendations : List Recommendation) (showWhy : Bool) : String :=
  unlines ("" :: "=== Recommendations ===" ::
    if recommendations.isEmpty then ["  (no active products in catalog)"]
    else rankingHeader :: underline rankingHeader ::
      recommendations.flatMap (rankingLines showWhy))

end NextOffer.Tables
