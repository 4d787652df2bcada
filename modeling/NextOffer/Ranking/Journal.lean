import NextOffer.Log.Record
import NextOffer.Ranking.Basic
import NextOffer.Text.Quoted

/-! # The journal of a ranking -/

namespace NextOffer.Ranking

open Log

def logger : String := "rule_studio.recommendations.ranker"

def notes (scored : ScoredProduct) : List Record :=
  match scored.excludedBy with
  | some tag =>
      [Record.debug logger s!"Product {scored.product.id} excluded by tag {Text.quoted tag}"]
  | none =>
      if scored.decision = .hidden then
        [Record.debug logger
          (s!"Product {scored.product.id} hidden: " ++ "; ".intercalate scored.why)]
      else []

/-- The messages about the active products of a catalog, up to a failure. -/
def catalogJournal (profile : Profile) (precision : Int) : List Product → List Record
  | [] => []
  | product :: rest =>
      match product.scored profile precision with
      | .error _ => []
      | .ok scored => notes scored ++ catalogJournal profile precision rest

/-- The messages of a ranking, with a summary unless it failed. -/
def journal (products : List Product) (profile : Profile) (precision : Int) : List Record :=
  catalogJournal profile precision (products.filter Product.active) ++
    match recommend products profile precision with
    | .error _ => []
    | .ok ranked =>
        let shown := ranked.countP Recommendation.isShown
        [Record.info logger (s!"Ranked {ranked.length} product(s) for {profile.customerId}: " ++
          s!"{shown} shown, {ranked.length - shown} hidden.")]

end NextOffer.Ranking
