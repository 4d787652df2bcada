import NextOffer.Proofs.Number.Line
import NextOffer.Proofs.Ranking.Arrangement

/-! # Who is shown what

A product is shown to a profile that has none of the excluding tags and reaches every required
score. The explanation of a scored product tells which of them it reaches, one line for each.
Higher scores and fewer tags never hide a product, and further conditions never reveal one.
-/

namespace NextOffer

theorem Decision.eq_hidden_iff {decision : Decision} : decision = .hidden ↔ decision ≠ .shown := by
  cases decision <;> simp

namespace Check

/-- The line tells of a score that is high enough. -/
def Passes (line : String) : Prop := "✓ ".toList <+: line.toList

theorem passes_spelling_iff (check : Check) : Passes check.spelling ↔ check.met = true := by
  cases reached : check.met <;> simp [Passes, spelling, reached, toString]

end Check

namespace Product

variable {product stricter : Product} {profile better : Profile} {precision : Int}
  {scored : ScoredProduct}

/-- The profile has no excluding tag of the product and reaches all its thresholds. -/
structure Eligible (product : Product) (profile : Profile) : Prop where
  welcome : ∀ tag ∈ product.exclusions, tag ∉ profile.tags
  reached : ∀ required ∈ product.requiredScores,
    required.2.le (profile.score required.1) = true

/-- Where the product looks, the second profile has scores that are at least as high and no
    excluding tags but those of the first. -/
structure Favors (product : Product) (profile better : Profile) : Prop where
  scores : ∀ required ∈ product.requiredScores,
    (profile.score required.1).le (better.score required.1) = true
  tags : ∀ tag ∈ product.exclusions, tag ∈ better.tags → tag ∈ profile.tags

/-- The second product has all exclusions and thresholds of the first, and maybe more. -/
structure Relaxes (product stricter : Product) : Prop where
  exclusions : product.exclusions ⊆ stricter.exclusions
  thresholds : product.requiredScores ⊆ stricter.requiredScores

theorem Eligible.of_favors (eligible : product.Eligible profile)
    (favors : product.Favors profile better) : product.Eligible better where
  welcome tag excluded present := eligible.welcome tag excluded (favors.tags tag excluded present)
  reached required listed :=
    Number.le_trans (eligible.reached required listed) (favors.scores required listed)

theorem Eligible.of_relaxes (eligible : stricter.Eligible profile)
    (relaxes : product.Relaxes stricter) : product.Eligible profile where
  welcome tag excluded := eligible.welcome tag (relaxes.exclusions excluded)
  reached required listed := eligible.reached required (relaxes.thresholds listed)

/-- There is one line and one entry of the breakdown for each required score, in order. -/
structure Explained (product : Product) (profile : Profile) (scored : ScoredProduct) : Prop where
  lines : List.Forall₂ (fun required line =>
      (Check.mk required.1 (profile.score required.1) required.2).line = .ok line ∧
        (Check.Passes line ↔ required.2.le (profile.score required.1) = true))
    product.requiredScores scored.why
  entries : List.Forall₂ (fun required entry => entry = (required.1, profile.score required.1))
    product.requiredScores scored.breakdown

/-- How a decision is made and what is said about it. -/
structure Judged (product : Product) (profile : Profile) (scored : ScoredProduct) : Prop where
  shown_iff_eligible : scored.decision = .shown ↔ product.Eligible profile
  /-- Thresholds are explained exactly when nothing excludes the product. -/
  shown_iff_passes : scored.decision = .shown ↔
    scored.excludedBy = none ∧ (∀ line ∈ scored.why, Check.Passes line) ∧
      product.Explained profile scored
  explained : scored.excludedBy = none → product.Explained profile scored
  /-- What excludes it is the only reason otherwise. -/
  excluded : ∀ tag, scored.excludedBy = some tag →
    tag ∈ product.exclusions ∧ tag ∈ profile.tags ∧
      scored.why = [s!"Excluded: customer has \"{tag}\" tag"] ∧ scored.breakdown = []

theorem exclusion?_eq_none_iff :
    product.exclusion? profile = none ↔ ∀ tag ∈ product.exclusions, tag ∉ profile.tags := by
  simp [exclusion?, Profile.hasTag]

theorem explained_of_checks (writable : product.HasWritableChecks profile)
    (why : scored.why = (product.checks profile).map Check.spelling)
    (breakdown : scored.breakdown =
      (product.checks profile).map fun check => (check.name, check.observed)) :
    product.Explained profile scored where
  lines := by
    rw [why, checks, List.map_map, List.forall₂_map_right_iff, List.forall₂_same]
    refine fun required listed => ⟨Check.line_of_isWritable ?_, Check.passes_spelling_iff _⟩
    exact List.forall_mem_map.mp writable required listed
  entries := by
    rw [breakdown, checks, List.map_map, List.forall₂_map_right_iff, List.forall₂_same]
    exact fun required _ => rfl

theorem Explained.passes_iff (explained : product.Explained profile scored) :
    (∀ line ∈ scored.why, Check.Passes line) ↔
      ∀ required ∈ product.requiredScores, required.2.le (profile.score required.1) = true := by
  have lines := explained.lines
  generalize product.requiredScores = thresholds at lines ⊢
  generalize scored.why = why at lines ⊢
  induction lines with
  | nil => simp
  | cons line _ ih =>
      rw [List.forall_mem_cons, List.forall_mem_cons]
      exact and_congr line.2 ih

theorem all_met_checks_iff : (product.checks profile).all Check.met = true ↔
    ∀ required ∈ product.requiredScores, required.2.le (profile.score required.1) = true := by
  simp [checks, Check.met]

theorem judged_of_scored (done : product.scored profile precision = .ok scored) :
    product.Judged profile scored := by
  rcases scored_eq_ok_iff.mp done with ⟨tag, found, rfl⟩ | ⟨free, writable, score, -, rfl⟩
  · have listed := List.mem_of_find?_eq_some found
    have present : tag ∈ profile.tags := by simpa [Profile.hasTag] using List.find?_some found
    constructor
    · simp only [barred, reduceCtorEq, false_iff]
      exact fun eligible => eligible.welcome tag listed present
    · simp [barred]
    · simp [barred]
    · rintro _ ⟨⟩
      exact ⟨listed, present, rfl, rfl⟩
  · have explained : product.Explained profile (product.admitted profile score) :=
      explained_of_checks writable rfl rfl
    have shown : (product.admitted profile score).decision = .shown ↔
        ∀ required ∈ product.requiredScores, required.2.le (profile.score required.1) = true := by
      rw [← all_met_checks_iff, admitted]
      split <;> simp_all
    constructor
    · rw [shown]
      exact ⟨fun reached => ⟨exclusion?_eq_none_iff.mp free, reached⟩, Eligible.reached⟩
    · rw [shown, explained.passes_iff]
      exact ⟨fun reached => ⟨rfl, reached, explained⟩, fun told => told.2.1⟩
    · exact fun _ => explained
    · intro tag excluded
      cases excluded

end Product

namespace Ranking

variable {products : List Product} {profile better : Profile} {precision : Int}
  {seats : List Seat} {entries : List Recommendation}

theorem mem_activePositions_iff {position : Nat} :
    position ∈ activePositions products ↔
      ∃ product, products[position]? = some product ∧ product.active = true := by
  simp [activePositions, activeEntries, List.mem_zipIdx_iff_getElem?]

/-- An entry has a product of the catalog, and apart from its rank it is what scoring makes of
    it. -/
theorem exists_scored_of_mem (done : recommend products profile precision = .ok entries)
    {entry : Recommendation} (member : entry ∈ entries) :
    entry.product ∈ products ∧ entry.product.active = true ∧
      ∃ scored, entry.product.scored profile precision = .ok scored ∧
        entry = place entry.rank scored := by
  obtain ⟨_, ordered, -, -, -, seated, arranged, -⟩ := exists_sources done
  obtain ⟨seat, inside, rfl⟩ := List.mem_map.mp (seated ▸ member)
  obtain ⟨k, here⟩ := List.getElem?_of_mem inside
  obtain ⟨product, scored, listed, found, told⟩ := arranged.scored k seat here
  have taken := arranged.complete.subset (List.mem_map_of_mem inside)
  obtain ⟨product', listed', active⟩ := mem_activePositions_iff.mp taken
  cases listed.symm.trans listed'
  rw [told]
  refine ⟨List.mem_of_getElem? listed, active, scored, found, ?_⟩
  rw [place, Product.product_of_scored found]

theorem exists_entry_of_active (done : recommend products profile precision = .ok entries)
    {product : Product} (member : product ∈ products) (active : product.active = true) :
    ∃ entry ∈ entries, entry.product = product := by
  obtain ⟨_, ordered, -, -, -, seated, arranged, -⟩ := exists_sources done
  obtain ⟨position, here⟩ := List.getElem?_of_mem member
  have free := arranged.complete.symm.subset (mem_activePositions_iff.mpr ⟨product, here, active⟩)
  obtain ⟨seat, inside, rfl⟩ := List.mem_map.mp free
  obtain ⟨k, seatedAt⟩ := List.getElem?_of_mem inside
  obtain ⟨product', scored, listed, -, told⟩ := arranged.scored k seat seatedAt
  cases here.symm.trans listed
  exact ⟨seat.entry, seated ▸ List.mem_map_of_mem inside, by rw [told]⟩

theorem shown_iff_eligible (done : recommend products profile precision = .ok entries)
    {entry : Recommendation} (member : entry ∈ entries) :
    entry.decision = .shown ↔ entry.product.Eligible profile := by
  obtain ⟨-, -, scored, found, made⟩ := exists_scored_of_mem done member
  rw [congrArg Recommendation.decision made]
  exact (Product.judged_of_scored found).shown_iff_eligible

/-- What decides whether products of a catalog are shown to a profile. -/
structure Eligibility (products : List Product) (profile : Profile) (precision : Int) :
    Prop where
  /-- Decisions are exact, and so are their explanations. -/
  judged : ∀ (product : Product) (scored : ScoredProduct),
    product.scored profile precision = .ok scored → product.Judged profile scored
  /-- Whatever is shown is shown to every profile that is favored. -/
  favored : ∀ (better : Profile) (entries others : List Recommendation),
    recommend products profile precision = .ok entries →
    recommend products better precision = .ok others →
    ∀ entry ∈ entries, entry.decision = .shown → entry.product.Favors profile better →
      (∃ other ∈ others, other.product = entry.product) ∧
      ∀ other ∈ others, other.product = entry.product → other.decision = .shown
  /-- Whatever is hidden stays hidden under further exclusions and thresholds. -/
  restricted : ∀ (product stricter : Product) (scored rescored : ScoredProduct),
    product.Relaxes stricter → product.scored profile precision = .ok scored →
    stricter.scored profile precision = .ok rescored → scored.decision = .hidden →
      rescored.decision = .hidden

/-- Eligibility is exact, and monotone in profiles and products. -/
theorem recommend_eligibility (products : List Product) (profile : Profile) (precision : Int) :
    Eligibility products profile precision where
  judged _ _ := Product.judged_of_scored
  favored better entries others done redone entry member shown favors := by
    have eligible := ((shown_iff_eligible done member).mp shown).of_favors favors
    obtain ⟨listed, active, -⟩ := exists_scored_of_mem done member
    refine ⟨exists_entry_of_active redone listed active, fun other inside same => ?_⟩
    rw [shown_iff_eligible redone inside, same]
    exact eligible
  restricted product stricter scored rescored relaxes done redone hidden := by
    rw [Decision.eq_hidden_iff] at hidden ⊢
    intro shown
    have eligible := (Product.judged_of_scored redone).shown_iff_eligible.mp shown
    exact hidden ((Product.judged_of_scored done).shown_iff_eligible.mpr
      (eligible.of_relaxes relaxes))

theorem recommend_singleton {product : Product} {scored : ScoredProduct}
    (active : product.active = true) (done : product.scored profile precision = .ok scored) :
    recommend [product] profile precision = .ok [place 1 scored] := by
  have catalog : scoreCatalog [product] profile precision = .ok [scored] := by
    rw [scoreCatalog, List.filter_cons_of_pos active, List.filter_nil, Outcome.mapM_eq_ok_iff]
    exact .cons done .nil
  have ordered : order scoreKey [scored] = [scored] :=
    List.perm_singleton.mp (order_perm scoreKey [scored])
  rw [recommend_of_scoreCatalog catalog, ordered]
  rfl

/-- An income of at least 4.5 is required. -/
def leastIncome : Number := .real (Binary64.ofDecimal false ⟨45, -1⟩)

def flat (exclusions : List String) : Product :=
  { id := "flat", name := "Flat", requiredScores := [("income", leastIncome)], exclusions }

def tenant (income : Int) (tags : List String) : Profile :=
  { customerId := "C1", scores := [("income", .int income)], tags }

theorem score_tenant (income : Int) (tags : List String) :
    (tenant income tags).score "income" = .int income := by
  by_cases none : income = 0 <;> simp [Profile.score, tenant, Fields.get?, Number.isZero, none]

/-- The flat as it is offered to an income that is high enough. -/
def offered (income : Int) : ScoredProduct where
  product := flat ["arrears"]
  decision := .shown
  score := Binary64.zero false
  why := [(Check.mk "income" (.int income) leastIncome).spelling]
  breakdown := [("income", .int income)]

theorem scored_flat {income : Int} {tags : List String}
    (short : (Number.int income).isWritable = true)
    (free : (flat ["arrears"]).exclusion? (tenant income tags) = none)
    (reached : leastIncome.le (.int income) = true) :
    (flat ["arrears"]).scored (tenant income tags) 2 = .ok (offered income) := by
  have checks : (flat ["arrears"]).checks (tenant income tags) =
      [⟨"income", .int income, leastIncome⟩] := by
    simp [Product.checks, flat, score_tenant]
  have score : (flat ["arrears"]).rankScore (tenant income tags) 2 =
      .ok (Binary64.zero false) := by
    have summed : (flat ["arrears"]).weightedSum (tenant income tags) =
        .ok (Binary64.zero false) := rfl
    have rounded : Product.roundHalfUp 2 (Binary64.zero false) = .ok (Binary64.zero false) := by
      decide +kernel
    rw [Product.rankScore, summed, Outcome.ok_bind, rounded]
  have writable : (flat ["arrears"]).HasWritableChecks (tenant income tags) := by
    rw [Product.HasWritableChecks, checks, List.forall_mem_singleton]
    exact ⟨short, rfl⟩
  have told : (flat ["arrears"]).admitted (tenant income tags) (Binary64.zero false) =
      offered income := by
    simp only [Product.admitted, checks, List.all_cons, Check.met, reached]
    rfl
  rw [← told]
  exact Product.scored_of_free free writable score

/-- A higher income and no tag keep the flat, and a tag that excludes it hides it whatever else
    excludes it. -/
theorem recommend_eligibility_flat :
    (∃ entries others,
      recommend [flat ["arrears"]] (tenant 5 ["renter"]) 2 = .ok entries ∧
      recommend [flat ["arrears"]] (tenant 6 []) 2 = .ok others ∧
      ∃ entry ∈ entries, entry.decision = .shown ∧
        entry.product.Favors (tenant 5 ["renter"]) (tenant 6 []) ∧
        ∃ other ∈ others, other.product = entry.product ∧ other.decision = .shown) ∧
    ∃ scored rescored,
      (flat ["renter"]).Relaxes (flat ["arrears", "renter"]) ∧
      (flat ["renter"]).scored (tenant 5 ["renter"]) 2 = .ok scored ∧
      (flat ["arrears", "renter"]).scored (tenant 5 ["renter"]) 2 = .ok rescored ∧
      scored.decision = .hidden ∧ rescored.decision = .hidden := by
  have five : (flat ["arrears"]).scored (tenant 5 ["renter"]) 2 = .ok (offered 5) :=
    scored_flat (by decide +kernel) (by decide) (by decide +kernel)
  have six : (flat ["arrears"]).scored (tenant 6 []) 2 = .ok (offered 6) :=
    scored_flat (by decide +kernel) (by decide) (by decide +kernel)
  have favors : (flat ["arrears"]).Favors (tenant 5 ["renter"]) (tenant 6 []) := by
    refine ⟨?_, by simp [tenant]⟩
    simp only [flat, List.forall_mem_singleton, score_tenant]
    decide +kernel
  have eligibility := recommend_eligibility [flat ["arrears"]] (tenant 5 ["renter"]) 2
  constructor
  · have kept := eligibility.favored (tenant 6 []) _ _ (recommend_singleton rfl five)
      (recommend_singleton rfl six) _ (List.mem_singleton_self _) rfl favors
    obtain ⟨other, inside, same⟩ := kept.1
    exact ⟨_, _, recommend_singleton rfl five, recommend_singleton rfl six, _,
      List.mem_singleton_self _, rfl, favors, other, inside, same, kept.2 other inside same⟩
  · have relaxes : (flat ["renter"]).Relaxes (flat ["arrears", "renter"]) :=
      ⟨by simp [flat], List.Subset.refl _⟩
    exact ⟨_, _, relaxes, rfl, rfl, rfl, eligibility.restricted _ _ _ _ relaxes rfl rfl rfl⟩

end Ranking

end NextOffer
