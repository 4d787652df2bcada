import NextOffer.Recommendation

/-! # Rankings as comma separated values

A record a line, ended by carriage return and line feed. A field with a comma, a quote
or a line break stands between quotes, and a quote inside it is written twice.
-/

namespace NextOffer.Csv

def isSpecial (c : Char) : Bool := c == ',' || c == '"' || c == '\r' || c == '\n'

def escaped (c : Char) : List Char := if c = '"' then ['"', '"'] else [c]

/-- A field, between quotes if it has to be. -/
def field (cs : List Char) : List Char :=
  if cs.any isSpecial then '"' :: cs.flatMap escaped ++ ['"'] else cs

def record (fields : List (List Char)) : List Char :=
  [','].intercalate (fields.map field) ++ ['\r', '\n']

def header : List (List Char) :=
  ["rank", "product_id", "product_name", "decision", "score", "why"].map String.toList

def fields (recommendation : Recommendation) : List (List Char) :=
  [Nat.toDigits 10 recommendation.rank,
    recommendation.product.id.toList,
    recommendation.product.name.toList,
    recommendation.decision.word.toList,
    recommendation.score.chars,
    (" | ".intercalate recommendation.why).toList]

def chars (recommendations : List Recommendation) : List Char :=
  (header :: recommendations.map fields).flatMap record

def text (recommendations : List Recommendation) : String := String.ofList (chars recommendations)

end NextOffer.Csv
