import Mathlib.Algebra.BigOperators.Group.List.Basic
import Mathlib.Algebra.Ring.Int.Defs
import Mathlib.Algebra.Ring.Nat
import NextOffer.Proofs.Evaluation.Change

/-! # Points

Where all scores and changes are integers, a score is a count of points. Effects add up: a
score ends with the points that it had and everything that complete effects gave it.
-/

namespace NextOffer

namespace Number

def IsWhole (x : Number) : Prop := ∃ n, x = .int n

theorem isWhole_int (n : Int) : IsWhole (.int n) := ⟨n, rfl⟩

/-- The value of an integer. -/
def points : Number → Int
  | .int n => n
  | .real _ => 0

end Number

namespace Profile

def HasWholeScores (profile : Profile) : Prop :=
  ∀ name value, profile.scores.get? name = some value → value.IsWhole

theorem hasWholeScores_of_forall {profile : Profile}
    (whole : ∀ entry ∈ profile.scores, entry.2.IsWhole) : profile.HasWholeScores :=
  fun _ _ found => whole _ (Fields.mem_of_get? found)

def points (profile : Profile) (name : String) : Int := (profile.score name).points

theorem HasWholeScores.score_eq_entry {profile : Profile} (whole : profile.HasWholeScores)
    (name : String) :
    profile.score name = .int (((profile.scores.get? name).map Number.points).getD 0) := by
  unfold score
  cases found : profile.scores.get? name with
  | none => rfl
  | some value =>
      obtain ⟨n, rfl⟩ := whole name value found
      by_cases zero : n = 0 <;> simp [Number.isZero, Number.points, zero]

theorem HasWholeScores.points_eq {profile : Profile} (whole : profile.HasWholeScores)
    (name : String) :
    profile.points name = ((profile.scores.get? name).map Number.points).getD 0 := by
  rw [points, whole.score_eq_entry, Number.points]

theorem HasWholeScores.score_eq {profile : Profile} (whole : profile.HasWholeScores)
    (name : String) : profile.score name = .int (profile.points name) := by
  rw [whole.points_eq, whole.score_eq_entry]

end Profile

namespace Effect

def HasWholeDelta (effect : Effect) : Prop :=
  ∀ name delta, effect.scoreChange? = some (name, delta) → delta.IsWhole

/-- The points that complete effects give to a score. -/
def gain (name : String) (effects : List Effect) : Int :=
  ((scoreChanges name effects).map Number.points).sum

/-- The points that complete effects give to a score or take from it, all counted. -/
def turnover (name : String) (effects : List Effect) : Nat :=
  ((scoreChanges name effects).map fun delta => delta.points.natAbs).sum

theorem natAbs_gain_le (name : String) (effects : List Effect) :
    (gain name effects).natAbs ≤ turnover name effects := by
  unfold gain turnover
  induction scoreChanges name effects with
  | nil => simp
  | cons delta rest ih =>
      simp only [List.map_cons, List.sum_cons]
      omega

theorem turnover_append (name : String) (front back : List Effect) :
    turnover name (front ++ back) = turnover name front + turnover name back := by
  simp [turnover, scoreChanges]

variable {profile final : Profile} {effect : Effect} {effects : List Effect}

theorem Changes.get?_scores (change : Changes profile effect final)
    (whole : profile.HasWholeScores) (wholeDelta : effect.HasWholeDelta) (name : String) :
    final.scores.get? name =
      if scoreChanges name [effect] = [] then profile.scores.get? name
      else some (.int (profile.points name + gain name [effect])) := by
  cases change with
  | @scored other delta value complete _ sum =>
      obtain ⟨n, rfl⟩ := wholeDelta other delta complete
      rw [whole.score_eq] at sum
      cases sum
      by_cases same : other = name
      · simp [gain, Fields.get?_set, complete, same, Number.points]
      · simp [Fields.get?_set, complete, same]
  | added _ scoreless | removed _ scoreless | nothing scoreless => simp [scoreless]

theorem Changes.whole (change : Changes profile effect final) (whole : profile.HasWholeScores)
    (wholeDelta : effect.HasWholeDelta) : final.HasWholeScores := by
  intro name value found
  rw [change.get?_scores whole wholeDelta] at found
  split at found
  · exact whole name value found
  · cases found
    exact ⟨_, rfl⟩

theorem gain_first_rest (name : String) (effect : Effect) (rest : List Effect) :
    gain name (effect :: rest) = gain name [effect] + gain name rest := by
  simp only [gain, scoreChanges_first_rest name effect rest, List.map_append, List.sum_append]

theorem gain_eq_zero {name : String} (unwritten : scoreChanges name effects = []) :
    gain name effects = 0 := by
  simp [gain, unwritten]

private theorem points_of_get? {name : String} (whole : profile.HasWholeScores)
    (whole' : final.HasWholeScores)
    (written : final.scores.get? name =
      if scoreChanges name effects = [] then profile.scores.get? name
      else some (.int (profile.points name + gain name effects))) :
    final.points name = profile.points name + gain name effects := by
  rw [whole'.points_eq, written]
  split
  case isTrue unwritten => simp [whole.points_eq, gain_eq_zero unwritten]
  case isFalse => simp [Number.points]

theorem Changes.points (change : Changes profile effect final)
    (whole : profile.HasWholeScores) (wholeDelta : effect.HasWholeDelta) (name : String) :
    final.points name = profile.points name + gain name [effect] :=
  points_of_get? whole (change.whole whole wholeDelta) (change.get?_scores whole wholeDelta name)

theorem Leads.whole (leads : Leads profile effects final) (whole : profile.HasWholeScores)
    (wholeDeltas : ∀ effect ∈ effects, effect.HasWholeDelta) : final.HasWholeScores := by
  induction leads with
  | done => exact whole
  | step change _ ih =>
      obtain ⟨wholeDelta, wholeDeltas⟩ := List.forall_mem_cons.mp wholeDeltas
      exact ih (change.whole whole wholeDelta) wholeDeltas

theorem Leads.get?_scores (leads : Leads profile effects final) (whole : profile.HasWholeScores)
    (wholeDeltas : ∀ effect ∈ effects, effect.HasWholeDelta) (name : String) :
    final.scores.get? name =
      if scoreChanges name effects = [] then profile.scores.get? name
      else some (.int (profile.points name + gain name effects)) := by
  induction leads with
  | done => simp
  | @step _ effect _ rest _ change _ ih =>
      obtain ⟨wholeDelta, wholeDeltas⟩ := List.forall_mem_cons.mp wholeDeltas
      rw [ih (change.whole whole wholeDelta) wholeDeltas, change.points whole wholeDelta,
        change.get?_scores whole wholeDelta, scoreChanges_first_rest name effect rest,
        gain_first_rest name effect rest]
      by_cases unwritten : scoreChanges name rest = []
      · simp [unwritten, gain_eq_zero unwritten]
      · simp [unwritten, Int.add_assoc]

/-- Effects give a score the sum of their changes. -/
theorem Leads.points (leads : Leads profile effects final) (whole : profile.HasWholeScores)
    (wholeDeltas : ∀ effect ∈ effects, effect.HasWholeDelta) (name : String) :
    final.points name = profile.points name + gain name effects :=
  points_of_get? whole (leads.whole whole wholeDeltas) (leads.get?_scores whole wholeDeltas name)

end Effect

end NextOffer
