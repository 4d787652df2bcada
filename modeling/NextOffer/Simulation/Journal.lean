import NextOffer.Evaluation.Journal
import NextOffer.Ranking.Journal
import NextOffer.Simulation.Basic

/-! # The journal of a simulation -/

namespace NextOffer.Simulation

open Log

def logger : String := "rule_studio.simulation"

/-- The messages of a simulation up to its end or its failure. -/
def journal (rules : List Rule) (products : List Product) (profile : Profile)
    (events : List Event) (now : Timestamp) (precision : Int) : List Record :=
  evaluationJournal rules profile events ++
    match evaluate rules profile events now with
    | .error _ => []
    | .ok evaluation =>
        Ranking.journal products evaluation.profile precision ++
          match Ranking.recommend products evaluation.profile precision with
          | .error _ => []
          | .ok ranked => [Record.info logger
              (s!"Simulation for {profile.customerId}: {events.length} event(s), " ++
                s!"{evaluation.trace.length} rule firing(s), " ++
                s!"{ranked.length} product(s) ranked.")]

end NextOffer.Simulation
