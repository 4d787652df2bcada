import NextOffer.Profile
import NextOffer.Recommendation

/-! # Scoring a product

A product is hidden by the first of its exclusion tags that the profile carries, or by
any required score that is too low. Its ranking score is the weighted sum of scores,
rounded half up. The scores that are required are told in lines, so they need texts.
-/

namespace NextOffer

/-- One required score of a product, as observed on a profile. -/
structure Check where
  name : String
  observed : Number
  threshold : Number

namespace Check

def met (check : Check) : Bool := check.threshold.le check.observed

def line (check : Check) : Except ArithmeticFault String := do
  if check.met then
    return s!"✓ {check.name}: {← check.observed.plain} ≥ {← check.threshold.plain}"
  else return s!"✗ {check.name}: {← check.observed.plain} < {← check.threshold.plain} required"

end Check

/-- A product scored for a profile, without a place in the ranking yet. -/
structure ScoredProduct where
  product : Product
  decision : Decision
  score : Binary64
  why : List String := []
  breakdown : Fields Number := []
  excludedBy : Option String := none

namespace Product

def exclusion? (product : Product) (profile : Profile) : Option String :=
  product.exclusions.find? profile.hasTag

def checks (product : Product) (profile : Profile) : List Check :=
  product.requiredScores.map fun required =>
    ⟨required.1, profile.score required.1, required.2⟩

/-- The sum of weighted scores, added up in order from zero. -/
def sumFrom (profile : Profile) (total : Binary64) :
    Fields Number → Except ArithmeticFault Binary64
  | [] => .ok total
  | (name, weight) :: rest => do
      let part ← (profile.score name).mul weight
      sumFrom profile (total.add (← part.toBinary64?)) rest

def weightedSum (product : Product) (profile : Profile) : Except ArithmeticFault Binary64 :=
  sumFrom profile (Binary64.zero false) product.weightByScore

def half : Binary64 := Binary64.ofDecimal false ⟨5, -1⟩

/-- A sum rounded to so many places, a half towards positive infinity. What is not finite
    stays. -/
def roundHalfUp (precision : Int) (total : Binary64) : Except ArithmeticFault Binary64 := do
  if total.isFinite then
    let factor := Number.tenTo precision
    let scaled := total.mul (← factor.toBinary64?)
    let whole ← (scaled.add half).floor?
    (Number.int whole).div factor
  else return total

def rankScore (product : Product) (profile : Profile) (precision : Int) :
    Except ArithmeticFault Binary64 := do
  roundHalfUp precision (← product.weightedSum profile)

/-- Score a product: exclusion first, then thresholds and the ranking score. -/
def scored (product : Product) (profile : Profile) (precision : Int) :
    Except ArithmeticFault ScoredProduct := do
  match product.exclusion? profile with
  | some tag =>
      return {
        product
        decision := .hidden
        score := Binary64.zero false
        why := [s!"Excluded: customer has \"{tag}\" tag"]
        excludedBy := some tag }
  | none =>
      let checks := product.checks profile
      let why ← checks.mapM Check.line
      return {
        product
        decision := if checks.all Check.met then .shown else .hidden
        score := ← product.rankScore profile precision
        why
        breakdown := checks.map fun check => (check.name, check.observed) }

end Product

end NextOffer
