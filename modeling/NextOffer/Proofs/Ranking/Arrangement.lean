import Mathlib.Data.List.Perm.Basic
import NextOffer.Proofs.Ranking.Order
import NextOffer.Proofs.Ranking.Scoring

/-! # What a ranking is

A ranking gives every active product of the catalog one seat, in an order that the decisions
and the scores determine: products keep their places in the catalog only where nothing else
tells them apart. A seat is told by a position in the catalog, so that a product which the
catalog lists twice has two.
-/

namespace NextOffer.Ranking

/-- The active products of a catalog with their positions. -/
def activeEntries (products : List Product) : List (Product × Nat) :=
  products.zipIdx.filter fun entry => entry.1.active

def activePositions (products : List Product) : List Nat := (activeEntries products).map Prod.snd

theorem filter_eq_filter_zipIdx {α : Type u} (keep : α → Bool) (items : List α) :
    items.filter keep = (items.zipIdx.filter fun item => keep item.1).map Prod.fst := by
  have split := @List.filter_map _ _ Prod.fst keep items.zipIdx
  rwa [List.zipIdx_map_fst] at split

theorem filter_active (products : List Product) :
    products.filter Product.active = (activeEntries products).map Prod.fst :=
  filter_eq_filter_zipIdx Product.active products

/-- What scoring gives for the product at a position. -/
def ScoredAt (products : List Product) (profile : Profile) (precision : Int) (position : Nat)
    (scored : ScoredProduct) : Prop :=
  ∃ product, products[position]? = some product ∧ product.scored profile precision = .ok scored

/-- A position of the catalog and its entry in the ranking. -/
@[ext]
structure Seat where
  position : Nat
  entry : Recommendation

/-- Seats for the products of a catalog, one after another. -/
structure Arrangement (products : List Product) (profile : Profile) (precision : Int)
    (seats : List Seat) : Prop where
  /-- Every active product has one seat, and no other product has any. -/
  complete : (seats.map Seat.position).Perm (activePositions products)
  /-- An entry is what scoring gives for its product, ranked by its seat from 1 on. -/
  scored : ∀ (k : Nat) (seat : Seat), seats[k]? = some seat →
    ∃ (product : Product) (scored : ScoredProduct), products[seat.position]? = some product ∧
      product.scored profile precision = .ok scored ∧
      seat.entry = {
        product
        decision := scored.decision
        rank := k + 1
        score := scored.score
        why := scored.why
        scoreBreakdown := scored.breakdown }
  shownFirst : seats.Pairwise fun a b => b.entry.decision = .shown → a.entry.decision = .shown

/-- Within one decision scores fall, and equal scores keep the order of the catalog. -/
def Falling (seats : List Seat) : Prop :=
  seats.Pairwise fun a b => a.entry.decision = b.entry.decision →
    (Number.real b.entry.score).le (.real a.entry.score) = true ∧
    ((Number.real a.entry.score).same (.real b.entry.score) = true → a.position < b.position)

theorem placeFrom_eq_mapIdx (rank : Nat) (items : List ScoredProduct) :
    placeFrom rank items = items.mapIdx fun k scored => place (rank + k) scored := by
  induction items generalizing rank with
  | nil => rfl
  | cons scored rest ih => simp [placeFrom, ih, Nat.add_assoc, Nat.add_comm 1]

/-- What a ranking is ordered by. -/
def scoreKey (scored : ScoredProduct) : Decision × Number := (scored.decision, .real scored.score)

/-- A position of the catalog and what scoring gives for the product there. -/
structure Source where
  position : Nat
  scored : ScoredProduct

namespace Source

def key (source : Source) : Decision × Number := scoreKey source.scored

/-- The seats for sources that have been put in order. -/
def seats (ordered : List Source) : List Seat :=
  ordered.mapIdx fun k source => ⟨source.position, place (k + 1) source.scored⟩

theorem map_entry_seats (ordered : List Source) :
    (seats ordered).map Seat.entry = placeFrom 1 (ordered.map scored) := by
  rw [placeFrom_eq_mapIdx]
  refine List.ext_getElem (by simp [seats]) fun k inside inside' => ?_
  simp [seats, Nat.add_comm 1]

theorem map_position_seats (ordered : List Source) :
    (seats ordered).map Seat.position = ordered.map position :=
  List.ext_getElem (by simp [seats]) (by simp [seats])

theorem pairwise_seats {R : Seat → Seat → Prop} {ordered : List Source}
    (sorted : ordered.Pairwise fun a b => ∀ rank rank',
      R ⟨a.position, place rank a.scored⟩ ⟨b.position, place rank' b.scored⟩) :
    (seats ordered).Pairwise R := by
  rw [List.pairwise_iff_getElem] at sorted ⊢
  intro i j inside inside' before
  simp only [seats, List.getElem_mapIdx]
  exact sorted i j _ _ before _ _

end Source

variable {products : List Product} {profile : Profile} {precision : Int}

theorem recommend_of_scoreCatalog {items : List ScoredProduct}
    (scored : scoreCatalog products profile precision = .ok items) :
    recommend products profile precision = .ok (placeFrom 1 (order scoreKey items)) := by
  simp only [recommend, scored]
  rfl

theorem sources_of_scoreCatalog {items : List ScoredProduct}
    (done : scoreCatalog products profile precision = .ok items) :
    ∃ sources : List Source, sources.map Source.position = activePositions products ∧
      sources.map Source.scored = items ∧
      ∀ source ∈ sources, ScoredAt products profile precision source.position source.scored := by
  rw [scoreCatalog, filter_active, Outcome.mapM_eq_ok_iff, List.forall₂_map_left_iff] at done
  have size := done.length_eq
  refine ⟨((activeEntries products).zip items).map fun pair => ⟨pair.1.2, pair.2⟩, ?_, ?_, ?_⟩
  · rw [activePositions, ← congrArg (List.map Prod.snd) (List.map_fst_zip (Nat.le_of_eq size)),
      List.map_map, List.map_map]
    rfl
  · rw [List.map_map]
    exact List.map_snd_zip (Nat.le_of_eq size.symm)
  · intro source member
    obtain ⟨⟨⟨product, position⟩, scored⟩, inside, rfl⟩ := List.mem_map.mp member
    have listed := (List.mem_filter.mp (List.of_mem_zip inside).1).1
    exact ⟨product, List.mem_zipIdx_iff_getElem?.mp listed, List.forall₂_zip done inside⟩

theorem arrangement_seats {sources ordered : List Source}
    (positions : sources.map Source.position = activePositions products)
    (scored : ∀ source ∈ sources,
      ScoredAt products profile precision source.position source.scored)
    (same : ordered.Perm sources)
    (sorted : ordered.Pairwise fun a b => ShownFirst a.scored.decision b.scored.decision) :
    Arrangement products profile precision (Source.seats ordered) where
  complete := by
    rw [Source.map_position_seats, ← positions]
    exact same.map _
  scored := by
    intro k seat seated
    rw [Source.seats, List.getElem?_mapIdx] at seated
    obtain ⟨source, found, rfl⟩ := Option.map_eq_some_iff.mp seated
    obtain ⟨product, listed, done⟩ :=
      scored source (same.subset (List.mem_of_getElem? found))
    refine ⟨product, source.scored, listed, done, ?_⟩
    rw [← Product.product_of_scored done]
    rfl
  shownFirst := Source.pairwise_seats (sorted.imp fun first _ _ => first)

theorem activePositions_ascending (products : List Product) :
    (activePositions products).Pairwise (· < ·) := by
  have positions : (products.zipIdx.map Prod.snd).Pairwise (· < ·) := by
    rw [List.zipIdx_map_snd, ← List.range_eq_range']
    exact List.pairwise_lt_range
  exact positions.sublist (List.filter_sublist.map Prod.snd)

/-- Without a NaN the order is that of decisions, scores and positions. -/
theorem falling_seats_order {sources : List Source}
    (ascending : (sources.map Source.position).Pairwise (· < ·))
    (placed : Placed Source.key sources) : Falling (Source.seats (order Source.key sources)) := by
  refine Source.pairwise_seats ?_
  have positions : (order Source.key sources).Pairwise fun a b =>
      standing a.key = standing b.key → a.position < b.position := by
    refine Stability.pairwise_of_filter (standing ∘ Source.key) fun k => ?_
    have kept := filter_order placed k
    simp only [Function.comp_apply, kept]
    exact (List.pairwise_map.mp ascending).filter _
  refine ((pairwise_order placed).and positions).imp ?_
  rintro a b ⟨⟨-, falls⟩, ties⟩ rank rank' decided
  refine ⟨falls decided, fun same => ties ?_⟩
  exact Prod.ext decided (Number.place?_eq_of_same same)

theorem ScoredAt.unique {position : Nat} {first second : ScoredProduct}
    (one : ScoredAt products profile precision position first)
    (other : ScoredAt products profile precision position second) : first = second := by
  obtain ⟨product, found, scored⟩ := one
  obtain ⟨product', found', scored'⟩ := other
  rw [found] at found'
  cases found'
  rw [scored] at scored'
  exact Except.ok.inj scored'

namespace Arrangement

variable {seats others : List Seat}

theorem source (arranged : Arrangement products profile precision seats) {k : Nat} {seat : Seat}
    (seated : seats[k]? = some seat) :
    ∃ scored, ScoredAt products profile precision seat.position scored ∧
      seat.entry = place (k + 1) scored := by
  obtain ⟨product, scored, found, done, entry⟩ := arranged.scored k seat seated
  refine ⟨scored, ⟨product, found, done⟩, entry.trans ?_⟩
  rw [← Product.product_of_scored done]
  rfl

/-- One position may come before another: by decision, then by score, then as in the catalog. -/
def Leads (products : List Product) (profile : Profile) (precision : Int) (i j : Nat) : Prop :=
  ∀ a b, ScoredAt products profile precision i a → ScoredAt products profile precision j b →
    ShownFirst a.decision b.decision ∧ (a.decision = b.decision →
      (Number.real b.score).le (.real a.score) = true ∧
      ((Number.real a.score).same (.real b.score) = true → i < j))

theorem leads (arranged : Arrangement products profile precision seats) (falling : Falling seats) :
    (seats.map Seat.position).Pairwise (Leads products profile precision) := by
  have both := arranged.shownFirst.and falling
  rw [List.pairwise_iff_getElem] at both
  rw [List.pairwise_map, List.pairwise_iff_getElem]
  intro i j inside inside' before a b scoredA scoredB
  obtain ⟨a', scoredA', entryA⟩ := arranged.source (List.getElem?_eq_getElem inside)
  obtain ⟨b', scoredB', entryB⟩ := arranged.source (List.getElem?_eq_getElem inside')
  obtain rfl := scoredA.unique scoredA'
  obtain rfl := scoredB.unique scoredB'
  have := both i j inside inside' before
  rw [entryA, entryB] at this
  exact this

theorem Leads.asymm {i j : Nat} {a b : ScoredProduct}
    (first : ScoredAt products profile precision i a)
    (second : ScoredAt products profile precision j b)
    (leads : Leads products profile precision i j) :
    ¬ Leads products profile precision j i := by
  intro follows
  obtain ⟨shown, falls⟩ := leads a b first second
  obtain ⟨shown', falls'⟩ := follows b a second first
  have decided := ShownFirst.antisymm shown shown'
  obtain ⟨below, earlier⟩ := falls decided
  obtain ⟨above, later⟩ := falls' decided.symm
  have before : i < j := earlier (by simp [Number.same, below, above])
  have after : j < i := later (by simp [Number.same, below, above])
  omega

theorem eq_of_positions (arranged : Arrangement products profile precision seats)
    (arranged' : Arrangement products profile precision others)
    (same : others.map Seat.position = seats.map Seat.position) : others = seats := by
  have size : others.length = seats.length := by simpa using congrArg List.length same
  refine List.ext_getElem size fun k inside inside' => ?_
  have position : others[k].position = seats[k].position := by
    have at_k := congrArg (·[k]?) same
    simpa [inside, inside'] using at_k
  obtain ⟨scored, atSeat, entry⟩ := arranged.source (List.getElem?_eq_getElem inside')
  obtain ⟨scored', atSeat', entry'⟩ := arranged'.source (List.getElem?_eq_getElem inside)
  rw [position] at atSeat'
  obtain rfl := atSeat.unique atSeat'
  exact Seat.ext position (entry'.trans entry.symm)

theorem scoredAt_of_mem (arranged : Arrangement products profile precision seats) {i : Nat}
    (member : i ∈ seats.map Seat.position) :
    ∃ scored, ScoredAt products profile precision i scored := by
  obtain ⟨seat, inside, rfl⟩ := List.mem_map.mp member
  obtain ⟨k, seated⟩ := List.getElem?_of_mem inside
  obtain ⟨scored, found, -⟩ := arranged.source seated
  exact ⟨scored, found⟩

/-- No two arrangements put scores and positions in order. -/
theorem unique (arranged : Arrangement products profile precision seats) (falling : Falling seats)
    (arranged' : Arrangement products profile precision others) (falling' : Falling others) :
    others = seats := by
  have same : (others.map Seat.position).Perm (seats.map Seat.position) :=
    arranged'.complete.trans arranged.complete.symm
  -- The same positions, in an order in which no two of them can lead each other.
  refine arranged.eq_of_positions arranged' ?_
  refine same.eq_of_pairwise ?_ (arranged'.leads falling') (arranged.leads falling)
  intro i j inside inside' before after
  obtain ⟨a, first⟩ := arranged'.scoredAt_of_mem inside
  obtain ⟨b, second⟩ := arranged.scoredAt_of_mem inside'
  exact absurd after (before.asymm first second)

end Arrangement

theorem map_score_placeFrom (rank : Nat) (items : List ScoredProduct) :
    (placeFrom rank items).map Recommendation.score = items.map ScoredProduct.score := by
  rw [placeFrom_eq_mapIdx]
  exact List.ext_getElem (by simp) (by simp [place])

/-- Where a ranking comes from: sources in the order of the catalog take the seats in another
    order, which without a NaN is the stable one. -/
theorem exists_sources {entries : List Recommendation}
    (done : recommend products profile precision = .ok entries) :
    ∃ sources ordered : List Source,
      sources.map Source.position = activePositions products ∧
      (∀ source ∈ sources, ScoredAt products profile precision source.position source.scored) ∧
      ordered.Perm sources ∧ (Source.seats ordered).map Seat.entry = entries ∧
      Arrangement products profile precision (Source.seats ordered) ∧
      ((∀ entry ∈ entries, entry.score ≠ .nan) →
        Placed Source.key sources ∧ ordered = order Source.key sources ∧
          Falling (Source.seats ordered)) := by
  obtain ⟨items, scored, same⟩ := Outcome.bind_eq_ok_iff.mp done
  obtain rfl : placeFrom 1 (order scoreKey items) = entries := Except.ok.inj same
  obtain ⟨sources, positions, rfl, found⟩ := sources_of_scoreCatalog scored
  have same := order_perm Source.key sources
  have mapped : order scoreKey (sources.map Source.scored) =
      (order Source.key sources).map Source.scored := map_order scoreKey Source.scored sources
  rw [mapped]
  have arranged :
      Arrangement products profile precision (Source.seats (order Source.key sources)) :=
    arrangement_seats positions found same (shownFirst_order Source.key sources)
  refine ⟨sources, _, positions, found, same, Source.map_entry_seats _, arranged, fun noNaN => ?_⟩
  have placed : Placed Source.key sources := by
    intro source member
    have listed := List.mem_map_of_mem (f := ScoredProduct.score)
      (List.mem_map_of_mem (f := Source.scored) (same.mem_iff.mpr member))
    rw [← map_score_placeFrom 1] at listed
    obtain ⟨entry, inside, score⟩ := List.mem_map.mp listed
    rw [Source.key, scoreKey, Option.isSome_iff_ne_none, Ne, Number.place?_real_eq_none_iff,
      ← score]
    exact noNaN entry inside
  exact ⟨placed, rfl, falling_seats_order (positions ▸ activePositions_ascending products) placed⟩

/-- A ranking arranges the active products, shown ones first. Without a NaN it is the only
    arrangement in which scores fall within one decision and equal ones keep their order. -/
theorem recommend_arranged (products : List Product) (profile : Profile) (precision : Int)
    (entries : List Recommendation) (done : recommend products profile precision = .ok entries) :
    ∃ seats, seats.map Seat.entry = entries ∧ Arrangement products profile precision seats ∧
      ((∀ entry ∈ entries, entry.score ≠ .nan) → Falling seats ∧
        ∀ others, Arrangement products profile precision others → Falling others →
          others = seats) := by
  obtain ⟨sources, ordered, -, -, -, seated, arranged, sorted⟩ := exists_sources done
  refine ⟨_, seated, arranged, fun noNaN => ?_⟩
  obtain ⟨-, -, falling⟩ := sorted noNaN
  exact ⟨falling, fun others => arranged.unique falling⟩

def loan (id : String) (income : Int) (active : Bool) : Product :=
  { id, name := id, requiredScores := [("income", .int income)]
    weightByScore := [("income", .int income)], active }

def earner : Profile := { customerId := "C1", scores := [("income", .int 5)] }

def loans : List Product :=
  [loan "big" 7 true, loan "old" 1 false, loan "small" 4 true, loan "small" 4 true]

def big : ScoredProduct where
  product := loan "big" 7 true
  decision := .hidden
  score := Binary64.ofInt 35
  why := ["✗ income: 5 < 7 required"]
  breakdown := [("income", .int 5)]

def small : ScoredProduct where
  product := loan "small" 4 true
  decision := .shown
  score := Binary64.ofInt 20
  why := ["✓ income: 5 ≥ 4"]
  breakdown := [("income", .int 5)]

def rankedLoans : List Recommendation := [place 1 small, place 2 small, place 3 big]

/-- The hidden loan comes last although it has the highest score, and the one that the catalog
    lists twice keeps both of its places. -/
theorem recommend_arranged_loans :
    recommend loans earner 0 = .ok rankedLoans ∧
    (∀ entry ∈ rankedLoans, entry.score ≠ .nan) ∧
    ∃ seats, seats.map Seat.entry = rankedLoans ∧ Arrangement loans earner 0 seats ∧
      ((∀ entry ∈ rankedLoans, entry.score ≠ .nan) → Falling seats ∧
        ∀ others, Arrangement loans earner 0 others → Falling others → others = seats) := by
  have scoredBig : (loan "big" 7 true).scored earner 0 = .ok big := by
    have line : (Check.mk "income" 5 7).IsWritable ∧
        (Check.mk "income" 5 7).spelling = "✗ income: 5 < 7 required" ∧
        (Check.mk "income" 5 7).met = false := by
      unfold Check.IsWritable
      decide +kernel
    have checks : (loan "big" 7 true).checks earner = [⟨"income", 5, 7⟩] := rfl
    have told : (loan "big" 7 true).admitted earner (Binary64.ofInt 35) = big := by
      simp only [Product.admitted, checks, List.map_cons, List.all_cons, line.2]
      rfl
    rw [← told]
    refine Product.scored_of_free rfl ?_ (by decide +kernel)
    exact List.forall_mem_singleton.mpr line.1
  have scoredSmall : (loan "small" 4 true).scored earner 0 = .ok small := by
    have line : (Check.mk "income" 5 4).IsWritable ∧
        (Check.mk "income" 5 4).spelling = "✓ income: 5 ≥ 4" ∧
        (Check.mk "income" 5 4).met = true := by
      unfold Check.IsWritable
      decide +kernel
    have checks : (loan "small" 4 true).checks earner = [⟨"income", 5, 4⟩] := rfl
    have told : (loan "small" 4 true).admitted earner (Binary64.ofInt 20) = small := by
      simp only [Product.admitted, checks, List.map_cons, List.all_cons, line.2]
      rfl
    rw [← told]
    refine Product.scored_of_free rfl ?_ (by decide +kernel)
    exact List.forall_mem_singleton.mpr line.1
  have catalog : scoreCatalog loans earner 0 = .ok [big, small, small] :=
    Outcome.mapM_eq_ok_iff.mpr (.cons scoredBig (.cons scoredSmall (.cons scoredSmall .nil)))
  have ordered : order scoreKey [big, small, small] = [small, small, big] := by
    have first : precedes (scoreKey small) (scoreKey big) = true := by decide +kernel
    have tied : precedes (scoreKey small) (scoreKey small) = false := by decide +kernel
    have placed : [big, small, small].all (fun s => (scoreKey s).2.place?.isSome) = true := by
      decide +kernel
    simp [order, placed, List.mergeSort, List.MergeSort.Internal.splitInTwo, first, tied]
  have done : recommend loans earner 0 = .ok rankedLoans := by
    have ranked : recommend loans earner 0 =
        .ok (placeFrom 1 (order scoreKey [big, small, small])) := by
      simp only [recommend, catalog]
      rfl
    rw [ranked, ordered]
    rfl
  have noNaN : ∀ entry ∈ rankedLoans, entry.score ≠ .nan := by
    simp only [rankedLoans, List.forall_mem_cons, place]
    decide +kernel
  exact ⟨done, noNaN, recommend_arranged loans earner 0 _ done⟩

end NextOffer.Ranking
