import NextOffer.Proofs.Ranking.Arrangement

/-! # Leaving a product out

Every product is scored on its own, so the others keep their scores when one is left out of
the catalog. They also keep their order when it is the stable order of the scores. With a NaN
there is no such order, and which scores are compared depends on the products around.
-/

namespace NextOffer

theorem eraseIdx_eq_filter {α : Type u} (items : List α) (j first : Nat) :
    items.eraseIdx j =
      ((items.zipIdx first).filter fun item => item.2 ≠ j + first).map Prod.fst := by
  induction items generalizing j first with
  | nil => rfl
  | cons item rest ih =>
      rw [List.zipIdx_cons]
      cases j with
      | zero =>
          have later : ∀ entry ∈ rest.zipIdx (first + 1), entry.2 ≠ 0 + first := by
            intro entry member
            have := List.le_snd_of_mem_zipIdx member
            omega
          rw [List.filter_cons_of_neg (by simp), List.filter_eq_self.mpr (by simpa using later),
            List.zipIdx_map_fst, List.eraseIdx_cons_zero]
      | succ j =>
          rw [List.filter_cons_of_pos (by simp), List.map_cons, List.eraseIdx_cons_succ,
            ih j (first + 1), Nat.add_right_comm, Nat.add_assoc]

/-- An entry of a ranking apart from its rank. -/
def Recommendation.unranked (entry : Recommendation) : Recommendation := { entry with rank := 0 }

namespace Ranking

/-- Entries with ranks from 1 on. -/
def renumbered (entries : List Recommendation) : List Recommendation :=
  entries.mapIdx fun k entry => { entry with rank := k + 1 }

theorem renumbered_unranked (entries : List Recommendation) :
    renumbered (entries.map Recommendation.unranked) = renumbered entries :=
  List.ext_getElem (by simp [renumbered]) (by simp [renumbered, Recommendation.unranked])

theorem renumbered_placeFrom (items : List ScoredProduct) :
    renumbered (placeFrom 1 items) = placeFrom 1 items := by
  rw [placeFrom_eq_mapIdx]
  exact List.ext_getElem (by simp [renumbered])
    (by simp [renumbered, place, Nat.add_comm 1])

theorem map_unranked_placeFrom (rank : Nat) (items : List ScoredProduct) :
    (placeFrom rank items).map Recommendation.unranked = items.map (place 0) := by
  rw [placeFrom_eq_mapIdx]
  exact List.ext_getElem (by simp) (by simp [Recommendation.unranked, place])

theorem Source.map_unranked_filter_seats (keep : Nat → Bool) (ordered : List Source) :
    (((seats ordered).filter fun seat => keep seat.position).map Seat.entry).map
        Recommendation.unranked =
      (ordered.filter fun source => keep source.position).map fun source =>
        place 0 source.scored := by
  have seated : seats ordered = ordered.zipIdx.map fun item =>
      ⟨item.1.position, place (item.2 + 1) item.1.scored⟩ := by
    rw [seats, List.mapIdx_eq_zipIdx_map]
  rw [seated, filter_eq_filter_zipIdx (fun source : Source => keep source.position) ordered,
    List.filter_map, List.map_map, List.map_map, List.map_map]
  rfl

variable {products : List Product} {profile : Profile} {precision : Int} {sources : List Source}

theorem forall₂_activeEntries
    (positions : sources.map Source.position = activePositions products)
    (found : ∀ source ∈ sources,
      ScoredAt products profile precision source.position source.scored) :
    List.Forall₂ (fun entry source => entry.2 = source.position ∧
      entry.1.scored profile precision = .ok source.scored) (activeEntries products) sources := by
  have same : List.Forall₂ (· = ·) ((activeEntries products).map Prod.snd)
      (sources.map Source.position) := by
    rw [List.forall₂_eq_eq_eq]
    exact positions.symm
  rw [List.forall₂_map_left_iff, List.forall₂_map_right_iff] at same
  have listed : ∀ entry ∈ activeEntries products, products[entry.2]? = some entry.1 :=
    fun entry member => List.mem_zipIdx_iff_getElem?.mp (List.mem_filter.mp member).1
  have scored := (List.forall₂_and_left _ _).mpr ⟨found, same.flip⟩
  refine ((List.forall₂_and_left _ _).mpr ⟨listed, scored.flip⟩).imp ?_
  rintro entry source ⟨listed, ⟨product, found, done⟩, position⟩
  rw [← position, listed] at found
  cases found
  exact ⟨position, done⟩

theorem scoreCatalog_of_sources
    (positions : sources.map Source.position = activePositions products)
    (found : ∀ source ∈ sources,
      ScoredAt products profile precision source.position source.scored) :
    scoreCatalog products profile precision = .ok (sources.map Source.scored) := by
  rw [scoreCatalog, filter_active, Outcome.mapM_eq_ok_iff, List.forall₂_map_left_iff,
    List.forall₂_map_right_iff]
  exact (forall₂_activeEntries positions found).imp fun _ _ both => both.2

/-- Scoring the catalog without one position gives the scores of the others. -/
theorem scoreCatalog_eraseIdx
    (positions : sources.map Source.position = activePositions products)
    (found : ∀ source ∈ sources,
      ScoredAt products profile precision source.position source.scored) (j : Nat) :
    scoreCatalog (products.eraseIdx j) profile precision =
      .ok ((sources.filter fun source => source.position ≠ j).map Source.scored) := by
  have active : (products.eraseIdx j).filter Product.active =
      ((activeEntries products).filter fun entry => entry.2 ≠ j).map Prod.fst := by
    rw [eraseIdx_eq_filter products j 0, List.filter_map, activeEntries, List.filter_filter,
      List.filter_filter]
    simp only [Nat.add_zero, Function.comp_def, Bool.and_comm]
  have kept := @List.rel_filter _ _ _ (fun entry => decide (entry.2 ≠ j))
    (fun source => decide (source.position ≠ j)) (fun entry source both => by simp [both.1])
    _ _ (forall₂_activeEntries positions found)
  rw [scoreCatalog, active, Outcome.mapM_eq_ok_iff, List.forall₂_map_left_iff,
    List.forall₂_map_right_iff]
  exact kept.imp fun _ _ both => both.2

/-- When one product is left out of a catalog, the others keep their decisions, scores and
    explanations. They also keep their order, with ranks from 1 on, when the ranking has no NaN
    or when the product was not in the ranking. -/
theorem recommend_eraseIdx {entries : List Recommendation}
    (done : recommend products profile precision = .ok entries) (j : Nat) :
    ∃ seats rest, seats.map Seat.entry = entries ∧
      Arrangement products profile precision seats ∧
      recommend (products.eraseIdx j) profile precision = .ok rest ∧
      (rest.map Recommendation.unranked).Perm
        (((seats.filter fun seat => seat.position ≠ j).map Seat.entry).map
          Recommendation.unranked) ∧
      ((∀ entry ∈ entries, entry.score ≠ .nan) → Falling seats ∧
        rest = renumbered ((seats.filter fun seat => seat.position ≠ j).map Seat.entry)) ∧
      (j ∉ activePositions products → rest = entries) := by
  obtain ⟨sources, ordered, positions, found, same, seated, arranged, sorted⟩ :=
    exists_sources done
  have erased := recommend_of_scoreCatalog (scoreCatalog_eraseIdx positions found j)
  refine ⟨Source.seats ordered, _, seated, arranged, erased, ?_, ?_, ?_⟩
  · -- Ranks apart, both are the scores of the sources that are left.
    rw [map_unranked_placeFrom, Source.map_unranked_filter_seats (fun position => position ≠ j)]
    refine ((order_perm _ _).map _).trans ?_
    rw [List.map_map]
    exact ((same.filter _).map _).symm
  · intro noNaN
    obtain ⟨placed, stable, falling⟩ := sorted noNaN
    refine ⟨falling, ?_⟩
    have others : order scoreKey
        ((sources.filter fun source => source.position ≠ j).map Source.scored) =
        (ordered.filter fun source => source.position ≠ j).map Source.scored := by
      rw [stable, ← order_filter placed]
      exact order_map (placed.filter _)
    rw [others, ← renumbered_unranked,
      Source.map_unranked_filter_seats (fun position => position ≠ j), ← renumbered_placeFrom,
      ← renumbered_unranked, map_unranked_placeFrom, List.map_map]
    rfl
  · intro absent
    have all : (sources.filter fun source => source.position ≠ j) = sources := by
      rw [List.filter_eq_self]
      intro source member
      have active : source.position ∈ activePositions products :=
        positions ▸ List.mem_map_of_mem member
      exact decide_eq_true fun here => absent (here ▸ active)
    rw [recommend_of_scoreCatalog (scoreCatalog_of_sources positions found)] at done
    rw [all]
    exact Except.ok.inj done

/-- A product that weighs every score by the same number. -/
def prize (id : String) (names : List String) (weight : Int) : Product :=
  { id, name := id, weightByScore := names.map fun name => (name, .int weight) }

/-- Ten times the gain and ten times the loss are infinities that have no sum. -/
def gambler : Profile where
  customerId := "C1"
  scores := [("points", .int 1), ("gain", .real (Binary64.ofDecimal false ⟨1, 308⟩)),
    ("loss", .real (Binary64.ofDecimal true ⟨1, 308⟩))]

def won (id : String) (names : List String) (weight : Int) (score : Binary64) : ScoredProduct :=
  ⟨prize id names weight, .shown, score, [], [], none⟩

def low : ScoredProduct := won "low" ["points"] 1 (Binary64.ofInt 1)

def wild : ScoredProduct := won "wild" ["gain", "loss"] 10 .nan

def high : ScoredProduct := won "high" ["points"] 2 (Binary64.ofInt 2)

theorem scored_prize {id : String} {names : List String} {weight : Int} {score : Binary64}
    (done : (prize id names weight).rankScore gambler 2 = .ok score) :
    (won id names weight score).product.scored gambler 2 = .ok (won id names weight score) := by
  have unchecked : (prize id names weight).HasWritableChecks gambler := by
    simp [Product.HasWritableChecks, Product.checks, prize]
  exact Product.scored_of_free rfl unchecked done

theorem rankScore_prizes :
    (prize "low" ["points"] 1).rankScore gambler 2 = .ok (Binary64.ofInt 1) ∧
    (prize "wild" ["gain", "loss"] 10).rankScore gambler 2 = .ok .nan ∧
    (prize "high" ["points"] 2).rankScore gambler 2 = .ok (Binary64.ofInt 2) := by
  decide +kernel

theorem scored_low : low.product.scored gambler 2 = .ok low := scored_prize rankScore_prizes.1

theorem scored_wild : wild.product.scored gambler 2 = .ok wild :=
  scored_prize rankScore_prizes.2.1

theorem scored_high : high.product.scored gambler 2 = .ok high :=
  scored_prize rankScore_prizes.2.2

theorem precedes_prizes :
    precedes (scoreKey high) (scoreKey low) = true ∧
    precedes (scoreKey wild) (scoreKey low) = false ∧
    precedes (scoreKey high) (scoreKey wild) = false ∧
    [low, high].all (fun s => (scoreKey s).2.place?.isSome) = true ∧
    [low, wild, high].all (fun s => (scoreKey s).2.place?.isSome) = false ∧
    high.score ≠ .nan ∧ low.score ≠ .nan := by
  decide +kernel

theorem recommend_low_high :
    recommend [low.product, high.product] gambler 2 = .ok [place 1 high, place 2 low] := by
  have catalog : scoreCatalog [low.product, high.product] gambler 2 = .ok [low, high] :=
    Outcome.mapM_eq_ok_iff.mpr (.cons scored_low (.cons scored_high .nil))
  obtain ⟨first, -, -, placed, -⟩ := precedes_prizes
  have ordered : order scoreKey [low, high] = [high, low] := by
    simp [order, placed, List.mergeSort, List.MergeSort.Internal.splitInTwo, first]
  rw [recommend_of_scoreCatalog catalog, ordered]
  rfl

/-- Compared with a NaN neither comes first, so a list with one in the middle counts as
    sorted. -/
theorem recommend_low_wild_high :
    recommend [low.product, wild.product, high.product] gambler 2 =
      .ok [place 1 low, place 2 wild, place 3 high] := by
  have catalog : scoreCatalog [low.product, wild.product, high.product] gambler 2 =
      .ok [low, wild, high] :=
    Outcome.mapM_eq_ok_iff.mpr (.cons scored_low (.cons scored_wild (.cons scored_high .nil)))
  obtain ⟨-, first, second, -, nowhere, -⟩ := precedes_prizes
  have ordered : order scoreKey [low, wild, high] = [low, wild, high] := by
    simp [order, nowhere, Sorting.sort, Sorting.collect, Sorting.firstRun, Sorting.chain, first,
      second, Sorting.leastRun, Sorting.insertAll, Sorting.Pending.add, Sorting.mergeAll]
  rw [recommend_of_scoreCatalog catalog, ordered]
  rfl

/-- Without the higher prize the lower one moves up. -/
theorem recommend_eraseIdx_low :
    recommend [low.product, high.product] gambler 2 = .ok [place 1 high, place 2 low] ∧
    ∃ seats rest, seats.map Seat.entry = [place 1 high, place 2 low] ∧
      Arrangement [low.product, high.product] gambler 2 seats ∧ Falling seats ∧
      recommend [low.product] gambler 2 = .ok rest ∧
      rest = renumbered ((seats.filter fun seat => seat.position ≠ 1).map Seat.entry) := by
  obtain ⟨seats, rest, seated, arranged, erased, -, sorted, -⟩ :=
    recommend_eraseIdx recommend_low_high 1
  have noNaN : ∀ entry ∈ [place 1 high, place 2 low], entry.score ≠ .nan := by
    obtain ⟨-, -, -, -, -, highNumber, lowNumber⟩ := precedes_prizes
    simp [place, highNumber, lowNumber]
  obtain ⟨falling, moved⟩ := sorted noNaN
  exact ⟨recommend_low_high, seats, rest, seated, arranged, falling, erased, moved⟩

/-- The prize without a score holds the lower one in front of the higher one, and without it
    they change places. -/
theorem recommend_eraseIdx_wild :
    ∃ entries rest,
      recommend [low.product, wild.product, high.product] gambler 2 = .ok entries ∧
      recommend ([low.product, wild.product, high.product].eraseIdx 1) gambler 2 = .ok rest ∧
      entries.map (·.product.id) = ["low", "wild", "high"] ∧
      rest.map (·.product.id) = ["high", "low"] :=
  ⟨_, _, recommend_low_wild_high, recommend_low_high, rfl, rfl⟩

end Ranking

end NextOffer
