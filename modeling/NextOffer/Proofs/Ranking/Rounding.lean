import NextOffer.Proofs.Binary64.Monotone
import NextOffer.Proofs.Ranking.Arrangement
import NextOffer.Proofs.Ranking.Overflow

/-! # Rounding never inverts a ranking

A sum is scaled, shifted by a half, floored and divided again. Each of these steps keeps the order,
so that the place of a score is a monotone function of the place of its sum, infinities included.
What rounding can do is to bring different sums together, and then the catalog decides.
-/

namespace NextOffer

namespace Product

open Binary64

/-- Where a sum of so many quanta comes to lie when it is rounded. -/
def settledQuanta (precision quanta : Int) : Int :=
  let factor := Nat.pow 10 precision.toNat
  let scaled := nearestSigned (quanta * (factor * unit : Nat)) unit
  let shifted := nearestSigned (scaled + Nat.pow 2 1073) 1
  nearestSigned (shifted / unit * unit) factor

theorem settledQuanta_mono {quanta quanta' : Int} (less : quanta ≤ quanta') (precision : Int) :
    settledQuanta precision quanta ≤ settledQuanta precision quanta' := by
  have steps : (0 : Int) < unit := Int.natCast_pos.mpr unit_pos
  unfold settledQuanta
  refine nearestSigned_mono (Int.mul_le_mul_of_nonneg_right ?_ steps.le) _
  refine Int.ediv_le_ediv steps (nearestSigned_mono (Int.add_le_add_right ?_ _) _)
  exact nearestSigned_mono (Int.mul_le_mul_of_nonneg_right less (Int.natCast_nonneg _)) _

/-- Where a sum comes to lie when it is rounded. Infinities stay. -/
def settledPlace (precision : Int) : Place → Place
  | .lowest => .lowest
  | .at quanta => .at (settledQuanta precision quanta)
  | .highest => .highest

theorem settledPlace_mono {a b : Place} (less : a.le b = true) (precision : Int) :
    (settledPlace precision a).le (settledPlace precision b) = true := by
  cases a with
  | lowest => rfl
  | highest =>
      cases b with
      | highest => rfl
      | lowest | «at» _ => cases less
  | «at» quanta =>
      cases b with
      | lowest => cases less
      | highest => rfl
      | «at» quanta' => exact decide_eq_true (settledQuanta_mono (of_decide_eq_true less) precision)

variable {precision : Int} {total score : Binary64}

theorem place?_add_half {x : Binary64} {quanta : Int} (there : x.place? = some (.at quanta)) :
    (x.add half).place? = some (.at (nearestSigned (quanta + Nat.pow 2 1073) 1)) := by
  obtain ⟨exactHalf, same⟩ := half_eq
  cases x with
  | nan => cases there
  | infinity negative => cases negative <;> cases there
  | finite negative size exact =>
      obtain ⟨_, _, _, added⟩ := add_half_returns negative size exact
      have finite : ((Binary64.finite negative size exact).add half).isFinite = true := by
        rw [added]
        rfl
      cases there
      rw [same] at finite ⊢
      exact place?_ofQuanta finite

theorem floor?_of_place? {x : Binary64} {quanta : Int} (there : x.place? = some (.at quanta)) :
    x.floor? = .ok (quanta / unit) := by
  cases x with
  | nan => cases there
  | infinity negative => cases negative <;> cases there
  | finite negative size exact =>
      cases there
      rfl

theorem place?_settle {scaled : Binary64} {quanta : Int} (low : 0 ≤ precision)
    (there : scaled.place? = some (.at quanta)) (settled : settle precision scaled = .ok score) :
    score.place? = some (.at (nearestSigned
      (nearestSigned (quanta + Nat.pow 2 1073) 1 / unit * unit)
      (Nat.pow 10 precision.toNat))) := by
  have divisor : (0 : Int) < Nat.pow 10 precision.toNat :=
    Int.natCast_pos.mpr (Nat.pow_pos (by decide))
  rw [settle, floor?_of_place? (place?_add_half there), Outcome.ok_bind, Number.tenTo, if_pos low]
    at settled
  exact Number.place?_quotient divisor settled

/-- A score lies where its sum comes to lie when it is rounded. -/
theorem place?_roundHalfUp (low : 0 ≤ precision) (high : precision ≤ 6)
    (rounded : roundHalfUp precision total = .ok score) :
    score.place? = total.place?.map (settledPlace precision) := by
  cases total with
  | nan =>
      cases rounded
      rfl
  | infinity negative =>
      cases rounded
      cases negative <;> rfl
  | finite negative quanta exact =>
      rw [roundHalfUp_finite low high] at rounded
      rcases eq_finite_or_infinity negative
        (quanta * (Nat.pow 10 precision.toNat * unit)) unit with ⟨_, same⟩ | same
      · have finite : (ofQuotient negative (quanta * (Nat.pow 10 precision.toNat * unit))
            unit).isFinite = true := by
          rw [same]
          rfl
        have scaled := place?_ofQuotient unit_pos finite
        rw [signed_mul] at scaled
        exact place?_settle low scaled rounded
      · rw [same, settle_infinity] at rounded
        cases rounded

/-- Rounding keeps the order of sums. -/
theorem roundHalfUp_mono (low : 0 ≤ precision) (high : precision ≤ 6) {total' score' : Binary64}
    (less : (Number.real total).le (.real total') = true)
    (rounded : roundHalfUp precision total = .ok score)
    (rounded' : roundHalfUp precision total' = .ok score') :
    (Number.real score).le (.real score') = true := by
  have place := place?_roundHalfUp low high rounded
  have place' := place?_roundHalfUp low high rounded'
  simp only [Number.le, Number.place?] at less ⊢
  rw [place, place']
  cases there : total.place? <;> cases there' : total'.place? <;> simp only [there, there'] at less
  case some.some => exact settledPlace_mono less precision
  all_goals cases less

theorem roundHalfUp_of_scored {product : Product} {profile : Profile} {scored : ScoredProduct}
    (free : product.exclusion? profile = none)
    (done : product.scored profile precision = .ok scored)
    (summed : product.weightedSum profile = .ok total) :
    roundHalfUp precision total = .ok scored.score := by
  obtain ⟨-, score, returned, rfl⟩ := (scored_eq_ok_iff_of_free free).mp done
  obtain ⟨total', summed', rounded⟩ := Outcome.bind_eq_ok_iff.mp returned
  cases summed.symm.trans summed'
  exact rounded

end Product

namespace Ranking

variable {products : List Product} {profile : Profile} {precision : Int}

/-- Where scores fall, a product with a larger sum comes after one with a smaller sum only when
    rounding brings them together and the catalog has them in this order. -/
theorem tied_of_seats (low : 0 ≤ precision) (high : precision ≤ 6) {seats : List Seat}
    (arranged : Arrangement products profile precision seats) (falling : Falling seats) :
    seats.Pairwise fun a b => a.entry.decision = b.entry.decision →
      ∀ p q, products[a.position]? = some p → products[b.position]? = some q →
        p.exclusion? profile = none → q.exclusion? profile = none →
        ∀ s t, p.weightedSum profile = .ok s → q.weightedSum profile = .ok t →
          (Number.real s).lt (.real t) = true →
            (Number.real a.entry.score).same (.real b.entry.score) = true ∧
              a.position < b.position := by
  refine falling.imp_of_mem fun {a b} inA inB falls => ?_
  obtain ⟨i, seatedA⟩ := List.getElem?_of_mem inA
  obtain ⟨j, seatedB⟩ := List.getElem?_of_mem inB
  obtain ⟨first, ⟨p', foundA, scoredA⟩, entryA⟩ := arranged.source seatedA
  obtain ⟨second, ⟨q', foundB, scoredB⟩, entryB⟩ := arranged.source seatedB
  intro decided p q listedA listedB freeA freeB s t summedA summedB less
  obtain rfl : p' = p := Option.some.inj (foundA.symm.trans listedA)
  obtain rfl : q' = q := Option.some.inj (foundB.symm.trans listedB)
  obtain ⟨above, earlier⟩ := falls decided
  have below : (Number.real a.entry.score).le (.real b.entry.score) = true := by
    rw [entryA, entryB]
    exact Product.roundHalfUp_mono low high ((Number.le_iff _ _).mpr (.inl less))
      (Product.roundHalfUp_of_scored freeA scoredA summedA)
      (Product.roundHalfUp_of_scored freeB scoredB summedB)
  have tied : (Number.real a.entry.score).same (.real b.entry.score) = true := by
    rw [Number.same, below, above]
    rfl
  exact ⟨tied, earlier tied⟩

/-- Scores are ordered like the sums that they are rounded from. So within one decision a larger
    sum comes after a smaller one only when both have one score and stand so in the catalog. -/
theorem rounding_keeps_order (profile : Profile) {precision : Int} (low : 0 ≤ precision)
    (high : precision ≤ 6) :
    (∀ (first second : Product) (s t a b : Binary64),
      first.weightedSum profile = .ok s → second.weightedSum profile = .ok t →
      (Number.real s).le (.real t) = true →
      first.rankScore profile precision = .ok a → second.rankScore profile precision = .ok b →
        (Number.real a).le (.real b) = true) ∧
    ∀ (products : List Product) (entries : List Recommendation),
      recommend products profile precision = .ok entries →
      (∀ entry ∈ entries, entry.score ≠ .nan) →
      ∃ seats, seats.map Seat.entry = entries ∧ Arrangement products profile precision seats ∧
        seats.Pairwise fun a b => a.entry.decision = b.entry.decision →
          ∀ p q, products[a.position]? = some p → products[b.position]? = some q →
            p.exclusion? profile = none → q.exclusion? profile = none →
            ∀ s t, p.weightedSum profile = .ok s → q.weightedSum profile = .ok t →
              (Number.real s).lt (.real t) = true →
                (Number.real a.entry.score).same (.real b.entry.score) = true ∧
                  a.position < b.position := by
  constructor
  · intro first second s t a b summed summed' less returned returned'
    rw [Product.rankScore, summed] at returned
    rw [Product.rankScore, summed'] at returned'
    exact Product.roundHalfUp_mono low high less returned returned'
  · intro products entries done noNaN
    obtain ⟨sources, ordered, -, -, -, seated, arranged, sorted⟩ := exists_sources done
    obtain ⟨-, -, falling⟩ := sorted noNaN
    exact ⟨_, seated, arranged, tied_of_seats low high arranged falling⟩

def offer (id : String) (hundredths : Nat) : Product where
  id := id
  name := id
  weightByScore := [("income", .real (Binary64.ofDecimal false ⟨hundredths, -2⟩))]

def offers : List Product := [offer "near" 20, offer "far" 25]

def near : ScoredProduct := ⟨offer "near" 20, .shown, Binary64.ofInt 1, [], [], none⟩

def far : ScoredProduct := ⟨offer "far" 25, .shown, Binary64.ofInt 1, [], [], none⟩

def rankedOffers : List Recommendation := [place 1 near, place 2 far]

theorem sums_offers :
    (offer "near" 20).weightedSum earner = .ok (Binary64.ofInt 1) ∧
    (offer "far" 25).weightedSum earner = .ok (Binary64.ofDecimal false ⟨125, -2⟩) ∧
    (Number.real (Binary64.ofInt 1)).lt (.real (Binary64.ofDecimal false ⟨125, -2⟩)) = true ∧
    (Number.real (Binary64.ofInt 1)).le (.real (Binary64.ofDecimal false ⟨125, -2⟩)) = true ∧
    (offer "near" 20).rankScore earner 0 = .ok (Binary64.ofInt 1) ∧
    (offer "far" 25).rankScore earner 0 = .ok (Binary64.ofInt 1) ∧
    precedes (scoreKey far) (scoreKey near) = false ∧
    ∀ entry ∈ rankedOffers, entry.score ≠ .nan := by
  decide +kernel

theorem recommend_offers : recommend offers earner 0 = .ok rankedOffers := by
  obtain ⟨-, -, -, -, scoreNear, scoreFar, tied, -⟩ := sums_offers
  have unchecked : ∀ id weight, (offer id weight).HasWritableChecks earner := by
    simp [Product.HasWritableChecks, Product.checks, offer]
  have scoredNear : (offer "near" 20).scored earner 0 = .ok near :=
    Product.scored_of_free rfl (unchecked _ _) scoreNear
  have scoredFar : (offer "far" 25).scored earner 0 = .ok far :=
    Product.scored_of_free rfl (unchecked _ _) scoreFar
  have catalog : scoreCatalog offers earner 0 = .ok [near, far] :=
    Outcome.mapM_eq_ok_iff.mpr (.cons scoredNear (.cons scoredFar .nil))
  have ordered : order scoreKey [near, far] = [near, far] := by
    have placed : [near, far].all (fun s => (scoreKey s).2.place?.isSome) = true := by
      decide +kernel
    simp [order, placed, List.mergeSort, List.MergeSort.Internal.splitInTwo, tied]
  rw [recommend_of_scoreCatalog catalog, ordered]
  rfl

/-- Offers that rounding brings together stand as the catalog has them, the one with the larger
    sum last. -/
theorem rounding_keeps_order_offers :
    ((0 : Int) ≤ 0 ∧ (0 : Int) ≤ 6) ∧
    ((offer "near" 20).weightedSum earner = .ok (Binary64.ofInt 1) ∧
      (offer "far" 25).weightedSum earner = .ok (Binary64.ofDecimal false ⟨125, -2⟩) ∧
      (Number.real (Binary64.ofInt 1)).lt (.real (Binary64.ofDecimal false ⟨125, -2⟩)) = true ∧
      (Number.real (Binary64.ofInt 1)).le (.real (Binary64.ofDecimal false ⟨125, -2⟩)) = true ∧
      (offer "near" 20).rankScore earner 0 = .ok (Binary64.ofInt 1) ∧
      (offer "far" 25).rankScore earner 0 = .ok (Binary64.ofInt 1) ∧
      (Number.real (Binary64.ofInt 1)).le (.real (Binary64.ofInt 1)) = true) ∧
    recommend offers earner 0 = .ok rankedOffers ∧
    (∀ entry ∈ rankedOffers, entry.score ≠ .nan) ∧
    ∃ seats, seats.map Seat.entry = rankedOffers ∧ Arrangement offers earner 0 seats ∧
      seats.Pairwise fun a b => a.entry.decision = b.entry.decision →
        ∀ p q, offers[a.position]? = some p → offers[b.position]? = some q →
          p.exclusion? earner = none → q.exclusion? earner = none →
          ∀ s t, p.weightedSum earner = .ok s → q.weightedSum earner = .ok t →
            (Number.real s).lt (.real t) = true →
              (Number.real a.entry.score).same (.real b.entry.score) = true ∧
                a.position < b.position := by
  obtain ⟨near, far, apart, ordered, scoreNear, scoreFar, -, noNaN⟩ := sums_offers
  have low : (0 : Int) ≤ 0 := by decide
  have high : (0 : Int) ≤ 6 := by decide
  obtain ⟨scores, ranks⟩ := rounding_keeps_order earner low high
  exact ⟨⟨low, high⟩,
    ⟨near, far, apart, ordered, scoreNear, scoreFar,
      scores _ _ _ _ _ _ near far ordered scoreNear scoreFar⟩,
    recommend_offers, noNaN, ranks _ _ recommend_offers noNaN⟩

end Ranking

end NextOffer
