import NextOffer.Proofs.Binary64.Summation
import NextOffer.Proofs.Evaluation.EntryOrder
import NextOffer.Proofs.Evaluation.Points
import NextOffer.Proofs.Ranking.Eligibility
import NextOffer.Proofs.Ranking.Overflow

/-! # Rankings and the order of entries

Neither the order of a profile's scores nor that of a product's thresholds shows in a ranking,
apart from the order of the reasons. The order of the weights does not show in a decision. It
may show in a score, since the weighted scores are added up one by one and each sum is rounded,
and so in the ranks; it does not for weighted scores that have one sum in every order.
-/

namespace NextOffer

/-- The same product up to the order of its thresholds and its weights. -/
structure Product.Reordered (first second : Product) : Prop where
  id : first.id = second.id
  name : first.name = second.name
  requiredScores : first.requiredScores.Perm second.requiredScores
  weightByScore : first.weightByScore.Perm second.weightByScore
  exclusions : first.exclusions = second.exclusions
  active : first.active = second.active

/-- The same scored product up to the order of its thresholds, weights and reasons. -/
structure ScoredProduct.Reordered (first second : ScoredProduct) : Prop where
  product : first.product.Reordered second.product
  decision : first.decision = second.decision
  score : first.score = second.score
  why : first.why.Perm second.why
  breakdown : first.breakdown.Perm second.breakdown
  excludedBy : first.excludedBy = second.excludedBy

/-- The same entry of a ranking up to the order of thresholds, weights and reasons. -/
structure Recommendation.Reordered (first second : Recommendation) : Prop where
  product : first.product.Reordered second.product
  decision : first.decision = second.decision
  rank : first.rank = second.rank
  score : first.score = second.score
  why : first.why.Perm second.why
  scoreBreakdown : first.scoreBreakdown.Perm second.scoreBreakdown

namespace Product

/-- The weighted scores of a product, in the order of its weights. -/
def parts (product : Product) (profile : Profile) : Except ArithmeticFault (List Binary64) :=
  product.weightByScore.mapM (weighted profile)

theorem sumFrom_eq_mapM (profile : Profile) (start : Binary64) (entries : Fields Number) :
    sumFrom profile start entries =
      (entries.mapM (weighted profile)).map fun parts => parts.foldl Binary64.add start := by
  induction entries generalizing start with
  | nil => rfl
  | cons entry rest ih =>
      rw [sumFrom_cons, List.mapM_cons]
      cases weighted profile entry with
      | error fault => rfl
      | ok part =>
          rw [Outcome.ok_bind, ih]
          cases rest.mapM (weighted profile) <;> rfl

theorem weightedSum_eq (product : Product) (profile : Profile) :
    product.weightedSum profile = (product.parts profile).map Binary64.total :=
  sumFrom_eq_mapM profile _ product.weightByScore

/-- The weighted scores have one sum, in whatever order they are added up. -/
def Steady (product : Product) (profile : Profile) : Prop :=
  ∀ parts, product.parts profile = .ok parts → Binary64.Steady parts

/-- The products have one ranking score, if it is computed. -/
def ScoresAlike (profile second : Profile) (precision : Int) (product other : Product) : Prop :=
  product.active = true → product.exclusion? profile = none →
    product.rankScore profile precision = other.rankScore second precision

variable {product other : Product} {profile second : Profile} {precision : Int}

theorem Reordered.exclusion?_eq (reordered : product.Reordered other)
    (tags : profile.tags = second.tags) :
    product.exclusion? profile = other.exclusion? second := by
  have carried : profile.hasTag = second.hasTag := by
    funext tag
    rw [Profile.hasTag, Profile.hasTag, tags]
  rw [exclusion?, exclusion?, reordered.exclusions, carried]

theorem weighted_congr (same : ∀ name, profile.score name = second.score name) :
    weighted profile = weighted second := by
  funext entry
  simp only [weighted, same]

section Scores

variable (reordered : product.Reordered other)
  (same : ∀ name, profile.score name = second.score name)

include reordered same

theorem Reordered.checks_perm : (product.checks profile).Perm (other.checks second) := by
  have observed : product.checks profile = product.checks second := by
    simp only [checks, same]
  rw [observed]
  exact reordered.requiredScores.map _

theorem Reordered.parts_perm :
    Outcome.Related List.Perm (product.parts profile) (other.parts second) := by
  rw [parts, weighted_congr same]
  exact Outcome.Related.mapM_perm (fun _ _ failed => (weighted_eq_error_iff.mp failed).1)
    reordered.weightByScore

/-- A ranking score stays when the weights stay in place, and when their parts are steady. -/
theorem Reordered.rankScore_eq
    (kept : product.weightByScore = other.weightByScore ∨ product.Steady profile)
    (precision : Int) : product.rankScore profile precision = other.rankScore second precision := by
  have summed : product.weightedSum profile = other.weightedSum second := by
    rw [weightedSum_eq, weightedSum_eq]
    obtain inPlace | steady := kept
    · rw [parts, parts, inPlace, weighted_congr same]
    · exact (reordered.parts_perm same).map_eq fun parts _ found moved =>
        (steady parts found).total_perm moved
  rw [rankScore, rankScore, summed]

theorem Reordered.scored (tags : profile.tags = second.tags)
    (agree : product.exclusion? profile = none →
      product.rankScore profile precision = other.rankScore second precision) :
    Outcome.Related ScoredProduct.Reordered (product.scored profile precision)
      (other.scored second precision) := by
  have checked := reordered.checks_perm same
  unfold Product.scored
  rw [← reordered.exclusion?_eq tags]
  cases excluded : product.exclusion? profile with
  | some tag => exact .returns ⟨reordered, rfl, rfl, .refl _, .refl _, rfl⟩
  | none =>
      simp only [agree excluded, checked.all_eq]
      have lines := Outcome.Related.mapM_perm (fun check _ => @Check.fault_of_line check _) checked
      refine lines.bind fun why why' _ moved => ?_
      cases other.rankScore second precision with
      | error fault => exact .fails fault
      | ok score => exact .returns ⟨reordered, rfl, rfl, moved, checked.map _, rfl⟩

theorem Reordered.judged (tags : profile.tags = second.tags) {scored rescored : ScoredProduct}
    (done : product.scored profile precision = .ok scored)
    (redone : other.scored second precision = .ok rescored) :
    scored.decision = rescored.decision ∧ scored.why.Perm rescored.why ∧
      scored.breakdown.Perm rescored.breakdown := by
  have checked := reordered.checks_perm same
  have exclusion := reordered.exclusion?_eq tags
  cases excluded : product.exclusion? profile with
  | some tag =>
      rw [scored_of_excluded excluded] at done
      rw [scored_of_excluded (exclusion.symm.trans excluded)] at redone
      cases done
      cases redone
      exact ⟨rfl, .refl _, .refl _⟩
  | none =>
      obtain ⟨-, score, -, rfl⟩ := (scored_eq_ok_iff_of_free excluded).mp done
      obtain ⟨-, score', -, rfl⟩ :=
        (scored_eq_ok_iff_of_free (exclusion.symm.trans excluded)).mp redone
      exact ⟨by simp only [admitted, checked.all_eq], checked.map _, checked.map _⟩

end Scores

theorem steady_of_whole (whole : profile.HasWholeScores)
    (weights : ∀ entry ∈ product.weightByScore, entry.2.IsWhole)
    (small : (product.weightByScore.map fun entry =>
      (profile.points entry.1 * entry.2.points).natAbs).sum < 2 ^ 53) :
    product.Steady profile := by
  let gains := product.weightByScore.map fun entry => profile.points entry.1 * entry.2.points
  have small' : (gains.map Int.natAbs).sum < 2 ^ 53 := by
    rwa [List.map_map]
  have found : product.parts profile = .ok (gains.map Binary64.ofInt) := by
    rw [parts, Outcome.mapM_eq_ok_iff, List.map_map, List.forall₂_map_right_iff]
    refine List.forall₂_same.mpr fun entry member => ?_
    obtain ⟨weight, same⟩ := weights entry member
    have room : (profile.points entry.1 * entry.2.points).natAbs < 2 ^ 53 :=
      (List.le_sum_of_mem (List.mem_map_of_mem (f := fun entry : String × Number =>
        (profile.points entry.1 * entry.2.points).natAbs) member)).trans_lt small
    rw [same, Number.points] at room
    simp only [weighted, whole.score_eq, same, Function.comp_apply, Number.points]
    exact (Binary64.ofInt_of_small room).1
  intro parts returned
  rw [found] at returned
  cases returned
  exact Binary64.steady_ofInt small'

end Product

namespace Ranking

variable {products others : List Product} {profile second : Profile} {precision : Int}

theorem forall₂_placeFrom {items items' : List ScoredProduct}
    (lined : List.Forall₂ ScoredProduct.Reordered items items') (rank : Nat) :
    List.Forall₂ Recommendation.Reordered (placeFrom rank items) (placeFrom rank items') := by
  induction lined generalizing rank with
  | nil => exact .nil
  | cons first _ ih =>
      exact .cons ⟨first.product, first.decision, rfl, first.score, first.why, first.breakdown⟩
        (ih (rank + 1))

theorem scoreCatalog_reordered (scores : ∀ name, profile.score name = second.score name)
    (tags : profile.tags = second.tags)
    (catalog : List.Forall₂ Product.Reordered products others)
    (agree : List.Forall₂ (Product.ScoresAlike profile second precision) products others) :
    Outcome.Related (List.Forall₂ ScoredProduct.Reordered)
      (scoreCatalog products profile precision) (scoreCatalog others second precision) := by
  have active : List.Forall₂ (fun product other => product.Reordered other ∧
      (product.exclusion? profile = none →
        product.rankScore profile precision = other.rankScore second precision))
      (products.filter Product.active) (others.filter Product.active) := by
    induction catalog with
    | nil => exact .nil
    | @cons product other _ _ reordered _ ih =>
        obtain ⟨alike, agree⟩ := List.forall₂_cons.mp agree
        cases kept : product.active with
        | false =>
            rw [List.filter_cons_of_neg (by simp [kept]),
              List.filter_cons_of_neg (by simp [← reordered.active, kept])]
            exact ih agree
        | true =>
            rw [List.filter_cons_of_pos kept,
              List.filter_cons_of_pos (reordered.active.symm.trans kept)]
            exact .cons ⟨reordered, alike kept⟩ (ih agree)
  exact Outcome.Related.mapM active fun _ _ both => both.1.scored scores tags both.2

theorem recommend_related (scores : ∀ name, profile.score name = second.score name)
    (tags : profile.tags = second.tags)
    (catalog : List.Forall₂ Product.Reordered products others)
    (agree : List.Forall₂ (Product.ScoresAlike profile second precision) products others) :
    Outcome.Related (List.Forall₂ Recommendation.Reordered)
      (recommend products profile precision) (recommend others second precision) := by
  refine (scoreCatalog_reordered scores tags catalog agree).bind fun items items' _ lined => ?_
  have keys : ∀ a b : ScoredProduct, a.Reordered b → scoreKey a = scoreKey b := fun a b same => by
    rw [scoreKey, scoreKey, same.decision, same.score]
  exact .returns (forall₂_placeFrom (forall₂_order keys lined) 1)

/-- What a ranking keeps when the entries of products and profile are listed in another
    order. -/
structure OrderFree (products others : List Product) (profile second : Profile)
    (precision : Int) : Prop where
  /-- Decisions and reasons stay in any case. -/
  judged : ∀ entries entries', recommend products profile precision = .ok entries →
    recommend others second precision = .ok entries' → ∀ entry ∈ entries, ∀ entry' ∈ entries',
      entry.product.Reordered entry'.product → entry.decision = entry'.decision ∧
        entry.why.Perm entry'.why ∧ entry.scoreBreakdown.Perm entry'.scoreBreakdown
  /-- All of the ranking stays if the scores do that are computed. -/
  ranked : List.Forall₂ (Product.ScoresAlike profile second precision) products others →
    Outcome.Related (List.Forall₂ Recommendation.Reordered)
      (recommend products profile precision) (recommend others second precision)
  /-- A score stays if the weights do, and if the weighted scores have one sum in any order. -/
  scores : List.Forall₂ (fun product other =>
    product.weightByScore = other.weightByScore ∨ product.Steady profile →
      product.rankScore profile precision = other.rankScore second precision) products others

/-- Rankings of one catalog and one profile up to the order of entries. -/
theorem recommend_reordered (distinct : profile.scores.names.Nodup)
    (same : profile.Reordered second) (catalog : List.Forall₂ Product.Reordered products others)
    (precision : Int) : OrderFree products others profile second precision where
  judged entries entries' done redone entry member entry' member' reordered := by
    obtain ⟨-, -, scored, found, made⟩ := exists_scored_of_mem done member
    obtain ⟨-, -, rescored, refound, remade⟩ := exists_scored_of_mem redone member'
    rw [made, remade]
    exact reordered.judged (Profile.score_eq_of_perm same.scores distinct) same.tags found refound
  ranked := recommend_related (Profile.score_eq_of_perm same.scores distinct) same.tags catalog
  scores := catalog.imp fun product other reordered kept =>
    reordered.rankScore_eq (Profile.score_eq_of_perm same.scores distinct) kept precision

def visitor (scores : Fields Number) : Profile := { customerId := "C1", scores }

def visits : Fields Number := [("trust", .int 2), ("reach", .int 3), ("risk", .int (-1))]

def card (floors weights : Fields Number) : Product :=
  { id := "card", name := "Card", requiredScores := floors, weightByScore := weights }

def floors : Fields Number := [("trust", .int 1), ("reach", .int 4)]

def weights : Fields Number := [("trust", .int 5), ("reach", .int 7), ("risk", .int 11)]

/-- Scores, thresholds and weights that are integers, each listed forwards and backwards. -/
theorem recommend_reordered_card :
    (visitor visits).scores.names.Nodup ∧
    (visitor visits).Reordered (visitor visits.reverse) ∧
    List.Forall₂ Product.Reordered [card floors weights]
      [card floors.reverse weights.reverse] ∧
    (card floors weights).Steady (visitor visits) ∧
    Outcome.Related (List.Forall₂ Recommendation.Reordered)
      (recommend [card floors weights] (visitor visits) 2)
      (recommend [card floors.reverse weights.reverse] (visitor visits.reverse) 2) := by
  have distinct : (visitor visits).scores.names.Nodup := by decide
  have same : (visitor visits).Reordered (visitor visits.reverse) :=
    ⟨rfl, .refl _, .refl _, (List.reverse_perm visits).symm, rfl, rfl⟩
  have catalog : List.Forall₂ Product.Reordered [card floors weights]
      [card floors.reverse weights.reverse] :=
    .cons ⟨rfl, rfl, (List.reverse_perm floors).symm, (List.reverse_perm weights).symm, rfl, rfl⟩
      .nil
  have steady : (card floors weights).Steady (visitor visits) :=
    Product.steady_of_whole
      (Profile.hasWholeScores_of_forall (by simp [visitor, visits, Number.isWhole_int]))
      (by simp [card, weights, Number.isWhole_int]) (by decide +kernel)
  have free := recommend_reordered distinct same catalog 2
  refine ⟨distinct, same, catalog, steady, free.ranked ?_⟩
  refine .cons (fun _ _ => ?_) .nil
  cases free.scores with
  | cons kept _ => exact kept (.inr steady)

def decimalWeight (entry : String × Decimal) : String × Number :=
  (entry.1, .real (Binary64.ofDecimal false entry.2))

/-- A product that weighs scores by decimals. -/
def blend (id : String) (weights : Fields Decimal) : Product :=
  { id, name := id, weightByScore := weights.map decimalWeight }

def tenth : String × Decimal := ("trust", ⟨1, -1⟩)

def rest : Fields Decimal := [("reach", ⟨3, -1⟩), ("risk", ⟨45, -3⟩)]

def novice : Profile :=
  visitor [("trust", .int 1), ("reach", .int 1), ("risk", .int 1)]

def blended (id : String) (weights : Fields Decimal) (hundredths : Nat) : ScoredProduct :=
  ⟨blend id weights, .shown, Binary64.ofDecimal false ⟨hundredths, -2⟩, [], [], none⟩

theorem scored_blend {id : String} {weights : Fields Decimal} {hundredths : Nat}
    (done : (blend id weights).rankScore novice 2 =
      .ok (Binary64.ofDecimal false ⟨hundredths, -2⟩)) :
    (blend id weights).scored novice 2 = .ok (blended id weights hundredths) := by
  have unchecked : (blend id weights).HasWritableChecks novice := by
    simp [Product.HasWritableChecks, Product.checks, blend]
  exact Product.scored_of_free rfl unchecked done

theorem recommend_pair {first second : Product} {a b : ScoredProduct}
    (active : first.active = true) (active' : second.active = true)
    (one : first.scored profile precision = .ok a)
    (other : second.scored profile precision = .ok b)
    (placed : Placed scoreKey [a, b]) :
    recommend [first, second] profile precision =
      .ok (placeFrom 1 (if precedes (scoreKey b) (scoreKey a) then [b, a] else [a, b])) := by
  have catalog : scoreCatalog [first, second] profile precision = .ok [a, b] := by
    rw [scoreCatalog, List.filter_cons_of_pos active, List.filter_cons_of_pos active',
      List.filter_nil]
    exact Outcome.mapM_eq_ok_iff.mpr (.cons one (.cons other .nil))
  have all : [a, b].all (fun s => (scoreKey s).2.place?.isSome) = true :=
    List.all_eq_true.mpr placed
  rw [recommend_of_scoreCatalog catalog, order, if_pos all]
  cases before : precedes (scoreKey b) (scoreKey a) <;>
    simp [List.mergeSort, List.MergeSort.Internal.splitInTwo, before]

/-- The products in the order of a ranking, with the hundredths of their scores. -/
def Tells (entries : List Recommendation) (told : List (String × Nat)) : Prop :=
  entries.map (fun entry => (entry.product.id, entry.score)) =
    told.map fun item => (item.1, Binary64.ofDecimal false ⟨item.2, -2⟩)

/-- 0.1 + 0.3 + 0.045 comes to 0.445 and is rounded up; 0.3 + 0.045 + 0.1 comes to a little
    less and is rounded down, behind a product that it was level with. -/
theorem recommend_not_reordered_blend :
    (blend "mixed" (tenth :: rest)).Reordered (blend "mixed" (rest ++ [tenth])) ∧
    ∃ entries entries',
      recommend [blend "mixed" (tenth :: rest), blend "plain" [("trust", ⟨45, -2⟩)]] novice 2 =
        .ok entries ∧
      recommend [blend "mixed" (rest ++ [tenth]), blend "plain" [("trust", ⟨45, -2⟩)]] novice 2 =
        .ok entries' ∧
      Tells entries [("mixed", 45), ("plain", 45)] ∧
      Tells entries' [("plain", 45), ("mixed", 44)] := by
  have reordered : (blend "mixed" (tenth :: rest)).Reordered (blend "mixed" (rest ++ [tenth])) :=
    ⟨rfl, rfl, .refl _, (List.perm_append_singleton tenth rest).symm.map decimalWeight, rfl, rfl⟩
  have forwards := @scored_blend "mixed" (tenth :: rest) 45 (by decide +kernel)
  have moved := @scored_blend "mixed" (rest ++ [tenth]) 44 (by decide +kernel)
  have plain := @scored_blend "plain" [("trust", ⟨45, -2⟩)] 45 (by decide +kernel)
  have tied : precedes (scoreKey (blended "plain" [("trust", ⟨45, -2⟩)] 45))
      (scoreKey (blended "mixed" (tenth :: rest) 45)) = false := by decide +kernel
  have behind : precedes (scoreKey (blended "plain" [("trust", ⟨45, -2⟩)] 45))
      (scoreKey (blended "mixed" (rest ++ [tenth]) 44)) = true := by decide +kernel
  have level := recommend_pair rfl rfl forwards plain (by unfold Placed; decide +kernel)
  have below := recommend_pair rfl rfl moved plain (by unfold Placed; decide +kernel)
  rw [tied] at level
  rw [behind] at below
  exact ⟨reordered, _, _, level, below, by simp [Tells, placeFrom, place, blended, blend],
    by simp [Tells, placeFrom, place, blended, blend]⟩

end Ranking

end NextOffer
