import NextOffer.Batch
import NextOffer.Tables

/-! # The workbench

Rules, products and a profile on which events are tried out. The profile at the start is
kept for comparison. A step that fails changes nothing.
-/

namespace NextOffer

structure Workbench where
  rules : Batch Rule
  products : Batch Product
  start : Profile
  current : Profile

namespace Workbench

inductive Step where
  | events (events : Batch Event) (now : Timestamp)
  | effect (effect : Effect)
  | check (event : Event) (conditions : Batch Condition)
  | recommend (precision : Int)
  /-- Compare the profile at the start with the current one. -/
  | diff
  | setRules (rules : Batch Rule)
  | setProducts (products : Batch Product)
  | reset
  /-- Make the current profile the one at the start. -/
  | mark

inductive Answer where
  | evaluated (evaluation : Evaluation)
  | applied (applied : Applied)
  | checked (holds : Bool)
  | ranked (recommendations : List Recommendation)
  | compared (diff : ProfileDiff) (text : String)
  | ruleOrder (ids : List String)
  | catalog (ids : List String)
  | profile (profile : Profile)

def ofProfile (rules : Batch Rule) (products : Batch Product) (profile : Profile) : Workbench :=
  ⟨rules, products, profile, profile⟩

def step (bench : Workbench) : Step → Except Fault (Answer × Workbench)
  | .events events now => do
      let evaluation ← evaluateBatches bench.rules bench.current events now
      return (.evaluated evaluation, { bench with current := evaluation.profile })
  | .effect effect => do
      let applied ← effect.apply bench.current
      return (.applied applied, { bench with current := applied.profile })
  | .check event conditions => do
      let holds ← Condition.allHoldIn (evaluationContext bench.current event) conditions
      return (.checked holds, bench)
  | .recommend precision => do
      return (.ranked (← recommendBatch bench.products bench.current precision), bench)
  | .diff => do
      let diff ← ProfileDiff.of bench.start bench.current
      let text ← Tables.profileDiff bench.start bench.current bench.current.customerId
      return (.compared diff text, bench)
  | .setRules rules => do
      let sorted := Rule.sortActive (← rules.each "is_active")
      return (.ruleOrder (sorted.map (·.id)), { bench with rules })
  | .setProducts products => do
      let ids := (← products.each "id").map (·.id)
      return (.catalog ids, { bench with products })
  | .reset => .ok (.profile bench.start, { bench with current := bench.start })
  | .mark => .ok (.profile bench.current, { bench with start := bench.current })

end Workbench

end NextOffer
