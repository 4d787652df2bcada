import NextOffer.Proofs.Writing
import NextOffer.Ranking.Score

/-! # Scoring a product

A product that nothing excludes is scored exactly when both numbers of each required score can
be written and the ranking score comes out. One that is excluded is scored always.
-/

namespace NextOffer

namespace Check

variable {check : Check}

/-- Both numbers of the line can be written. -/
def IsWritable (check : Check) : Prop :=
  check.observed.isWritable = true ∧ check.threshold.isWritable = true

/-- The line, spelled out. -/
def spelling (check : Check) : String :=
  if check.met then
    s!"✓ {check.name}: {check.observed.plainText} ≥ {check.threshold.plainText}"
  else s!"✗ {check.name}: {check.observed.plainText} < {check.threshold.plainText} required"

theorem line_eq_ok_iff {line : String} :
    check.line = .ok line ↔ check.IsWritable ∧ line = check.spelling := by
  unfold Check.line Number.plain IsWritable spelling
  cases check.met <;> cases check.observed.isWritable <;> cases check.threshold.isWritable <;>
    simp [eq_comm]

theorem fault_of_line {fault : ArithmeticFault} (failed : check.line = .error fault) :
    fault = .tooManyDigits := by
  unfold Check.line Number.plain at failed
  cases met : check.met <;> cases observed : check.observed.isWritable <;>
    cases threshold : check.threshold.isWritable <;>
    simp [met, observed, threshold] at failed <;> exact failed.symm

theorem line_of_isWritable (writable : check.IsWritable) : check.line = .ok check.spelling :=
  line_eq_ok_iff.mpr ⟨writable, rfl⟩

theorem mapM_line_eq_ok_iff {checks : List Check} {lines : List String} :
    checks.mapM line = .ok lines ↔
      (∀ check ∈ checks, check.IsWritable) ∧ lines = checks.map spelling :=
  Outcome.mapM_eq_ok_iff_map fun _ _ => line_eq_ok_iff

end Check

namespace Product

variable {product : Product} {profile : Profile} {precision : Int} {scored : ScoredProduct}

/-- All numbers in the lines about the required scores can be written. -/
def HasWritableChecks (product : Product) (profile : Profile) : Prop :=
  ∀ check ∈ product.checks profile, check.IsWritable

/-- A product that nothing excludes, with its ranking score. -/
def admitted (product : Product) (profile : Profile) (score : Binary64) : ScoredProduct where
  product := product
  decision := if (product.checks profile).all Check.met then .shown else .hidden
  score := score
  why := (product.checks profile).map Check.spelling
  breakdown := (product.checks profile).map fun check => (check.name, check.observed)

/-- A product that a tag excludes. -/
def barred (product : Product) (tag : String) : ScoredProduct where
  product := product
  decision := .hidden
  score := Binary64.zero false
  why := [s!"Excluded: customer has \"{tag}\" tag"]
  excludedBy := some tag

theorem scored_of_excluded {tag : String} (found : product.exclusion? profile = some tag) :
    product.scored profile precision = .ok (product.barred tag) := by
  simp only [Product.scored, found]
  rfl

theorem scored_eq_ok_iff_of_free (free : product.exclusion? profile = none) :
    product.scored profile precision = .ok scored ↔
      product.HasWritableChecks profile ∧
        ∃ score, product.rankScore profile precision = .ok score ∧
          scored = product.admitted profile score := by
  simp only [Product.scored, free, Outcome.bind_eq_ok_iff, Check.mapM_line_eq_ok_iff,
    HasWritableChecks]
  constructor
  · rintro ⟨lines, ⟨writable, rfl⟩, score, ranked, same⟩
    exact ⟨writable, score, ranked, (Except.ok.inj same).symm⟩
  · rintro ⟨writable, score, ranked, rfl⟩
    exact ⟨_, ⟨writable, rfl⟩, score, ranked, rfl⟩

theorem scored_of_free (free : product.exclusion? profile = none)
    (writable : product.HasWritableChecks profile) {score : Binary64}
    (ranked : product.rankScore profile precision = .ok score) :
    product.scored profile precision = .ok (product.admitted profile score) :=
  (scored_eq_ok_iff_of_free free).mpr ⟨writable, score, ranked, rfl⟩

theorem scored_eq_ok_iff :
    product.scored profile precision = .ok scored ↔
      (∃ tag, product.exclusion? profile = some tag ∧ scored = product.barred tag) ∨
      (product.exclusion? profile = none ∧ product.HasWritableChecks profile ∧
        ∃ score, product.rankScore profile precision = .ok score ∧
          scored = product.admitted profile score) := by
  cases found : product.exclusion? profile with
  | none => simp [scored_eq_ok_iff_of_free found]
  | some tag => simp [scored_of_excluded found, eq_comm]

theorem product_of_scored (done : product.scored profile precision = .ok scored) :
    scored.product = product := by
  rcases scored_eq_ok_iff.mp done with ⟨tag, -, rfl⟩ | ⟨-, -, score, -, rfl⟩ <;> rfl

end Product

end NextOffer
