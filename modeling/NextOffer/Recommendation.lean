import NextOffer.Product
import NextOffer.Vocabulary

/-! # Recommendations and traces

What an evaluation and a ranking produce.
-/

namespace NextOffer

structure TraceEntry where
  ruleId : String
  ruleName : String
  /-- The changes the rule made, empty when it made none. -/
  effectDescription : String := ""
  deriving DecidableEq, Repr

structure Recommendation where
  product : Product
  decision : Decision
  /-- Place in the ranking, counted from 1 over all products. -/
  rank : Nat
  score : Binary64
  /-- Reasons, in the order of checking. -/
  why : List String := []
  scoreBreakdown : Fields Number := []

namespace Recommendation

def isShown (recommendation : Recommendation) : Bool := recommendation.decision == .shown

end Recommendation

open Schema

namespace TraceEntry

def reader : Reader TraceEntry :=
  Reader.record "TraceEntry" fun entries =>
    TraceEntry.mk
      <$> Reader.required entries ⟨"rule_id", "ruleId"⟩ Reader.text
      <*> Reader.required entries ⟨"rule_name", "ruleName"⟩ Reader.text
      <*> Reader.optional entries ⟨"effect_description", "effectDescription"⟩ "" Reader.text

end TraceEntry

namespace Decision

def reader : Reader Decision := Reader.word (all.map word) ofWord?

end Decision

namespace Recommendation

/-- A rank counts from 1. -/
def rankReader : Reader Nat := fun value =>
  (Reader.integer value).bind fun rank =>
    if rank < 1 then .reject (.refused s!"rank must be >= 1, got {rank}.")
    else .accepted rank.toNat

def reader : Reader Recommendation :=
  Reader.record "ProductRecommendation" fun entries =>
    Recommendation.mk
      <$> Reader.required entries (.plain "product") Product.reader
      <*> Reader.required entries (.plain "decision") Decision.reader
      <*> Reader.required entries (.plain "rank") rankReader
      <*> Reader.required entries (.plain "score") Reader.real
      <*> Reader.optional entries (.plain "why") [] (Reader.list Reader.text)
      <*> Reader.optional entries ⟨"score_breakdown", "scoreBreakdown"⟩ []
        (Reader.mapping Reader.number)

end Recommendation

end NextOffer
