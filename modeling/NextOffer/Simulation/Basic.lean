import NextOffer.Evaluation.Basic
import NextOffer.Narrative
import NextOffer.Ranking.Basic

/-! # Simulations

Evaluate events on a profile, rank the products for the result, and tell the story.
-/

namespace NextOffer

structure Simulation where
  initial : Profile
  final : Profile
  trace : List TraceEntry
  recommendations : List Recommendation
  narrative : String

namespace Simulation

def run (rules : List Rule) (products : List Product) (profile : Profile)
    (events : List Event) (now : Timestamp) (precision : Int) :
    Except ArithmeticFault Simulation := do
  let evaluation ← evaluate rules profile events now
  let recommendations ← Ranking.recommend products evaluation.profile precision
  return {
    initial := profile
    final := evaluation.profile
    trace := evaluation.trace
    recommendations
    narrative := Narrative.ofRanking evaluation.trace recommendations }

end Simulation

end NextOffer
