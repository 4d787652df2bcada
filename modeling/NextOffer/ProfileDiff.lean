import NextOffer.Profile

/-! # Differences between two profiles

Every score of either profile is lined up, absent ones as 0, and every tag is added,
removed or unchanged. The order is that of the first profile, then of the second.
-/

namespace NextOffer

/-- A score before and after, and the change. -/
structure ScoreChange where
  name : String
  before : Number
  after : Number
  delta : Number

structure ProfileDiff where
  scores : List ScoreChange
  added : List String
  removed : List String
  unchanged : List String

namespace ScoreChange

def changed (change : ScoreChange) : Bool := !change.delta.isZero

/-- The change of one score; fails when the difference does not exist. -/
def of (before after : Profile) (name : String) : Except ArithmeticFault ScoreChange := do
  let old := before.score name
  let new := after.score name
  return ⟨name, old, new, ← new.sub old⟩

end ScoreChange

namespace ProfileDiff

def scoreNames (before after : Profile) : List String :=
  (before.scores.names ++ after.scores.names).eraseDups

def tags (before after : Profile) : List String := (before.tags ++ after.tags).eraseDups

def of (before after : Profile) : Except ArithmeticFault ProfileDiff := do
  let scores ← (scoreNames before after).mapM (ScoreChange.of before after)
  let all := tags before after
  return {
    scores
    added := all.filter fun tag => after.hasTag tag && !before.hasTag tag
    removed := all.filter fun tag => before.hasTag tag && !after.hasTag tag
    unchanged := all.filter fun tag => before.hasTag tag && after.hasTag tag }

def changedScores (diff : ProfileDiff) : List ScoreChange := diff.scores.filter (·.changed)

def isEmpty (diff : ProfileDiff) : Bool :=
  diff.changedScores.isEmpty && diff.added.isEmpty && diff.removed.isEmpty

end ProfileDiff

end NextOffer
