import NextOffer.Ranking.Score
import NextOffer.Sorting.Basic

/-! # Ranking products

Shown products come before hidden ones, each part by falling score; equal scores keep the
order of the catalog. Ranks count from 1 over both parts.
-/

namespace NextOffer

namespace Ranking

/-- Whether a product with some decision and score comes before another. -/
def precedes (a b : Decision × Number) : Bool :=
  if a.1 = b.1 then a.2.neg.lt b.2.neg else a.1 == .shown

/-- Order items by decision and falling score. Scores without a NaN have one stable order.
    A NaN is neither above nor below any score, so with one the order is that of the sort by
    runs. -/
def order {α : Type u} (key : α → Decision × Number) (items : List α) : List α :=
  if items.all fun item => (key item).2.place?.isSome then
    items.mergeSort fun a b => !precedes (key b) (key a)
  else Sorting.sort (fun a b => precedes (key a) (key b)) items

/-- Score the active products of a catalog in its order. -/
def scoreCatalog (products : List Product) (profile : Profile) (precision : Int) :
    Except ArithmeticFault (List ScoredProduct) :=
  (products.filter Product.active).mapM fun product => product.scored profile precision

/-- A scored product at a place of the ranking. -/
def place (rank : Nat) (scored : ScoredProduct) : Recommendation := {
  product := scored.product
  decision := scored.decision
  rank
  score := scored.score
  why := scored.why
  scoreBreakdown := scored.breakdown }

/-- Number places from `rank` on. -/
def placeFrom : Nat → List ScoredProduct → List Recommendation
  | _, [] => []
  | rank, scored :: rest => place rank scored :: placeFrom (rank + 1) rest

/-- Rank the active products of a catalog for a profile. -/
def recommend (products : List Product) (profile : Profile) (precision : Int) :
    Except ArithmeticFault (List Recommendation) := do
  let scored ← scoreCatalog products profile precision
  return placeFrom 1 (order (fun s => (s.decision, .real s.score)) scored)

end Ranking

end NextOffer
