import NextOffer.Profile
import NextOffer.Rule

/-! # Applying effects

An effect that lacks a field, adds a tag that is there or removes one that is not changes
nothing and has no description. Every other effect describes what it did, and a change of
a score fails when one of the numbers in its description has no text.
-/

namespace NextOffer

/-- A profile after an effect, with a description of the change, empty when there was none. -/
structure Applied where
  profile : Profile
  description : String := ""

namespace Effect

/-- The sign in front of a change that is no decrease. -/
def plusSign (delta : Number) : String := if Number.le 0 delta then "+" else ""

/-- The description of a change of a score: `financialStability +10 (52 → 62)`. -/
def changeText (score : String) (delta old new : Number) : Except ArithmeticFault String := do
  return s!"{score} {plusSign delta}{← delta.plain} ({← old.plain} → {← new.plain})"

/-- Apply an effect. Only a change of a score can fail: its sum, and its description. -/
def apply (profile : Profile) : Effect → Except ArithmeticFault Applied
  | .scoreDelta (some score) (some delta) =>
      if score = "" then .ok ⟨profile, ""⟩
      else do
        let old := profile.score score
        let new ← old.add delta
        return {
          profile := { profile with scores := profile.scores.set score new }
          description := ← changeText score delta old new }
  | .addTag (some tag) =>
      if tag = "" ∨ profile.hasTag tag then .ok ⟨profile, ""⟩
      else .ok {
        profile := { profile with tags := profile.tags ++ [tag] }
        description := s!"Added tag \"{tag}\"" }
  | .removeTag (some tag) =>
      if tag = "" ∨ !profile.hasTag tag then .ok ⟨profile, ""⟩
      else .ok {
        profile := { profile with tags := profile.tags.erase tag }
        description := s!"Removed tag \"{tag}\"" }
  | _ => .ok ⟨profile, ""⟩

/-- Apply effects one after another and collect the descriptions of changes. -/
def applyAll (profile : Profile) : List Effect → Except ArithmeticFault (Profile × List String)
  | [] => .ok (profile, [])
  | effect :: rest => do
      let applied ← effect.apply profile
      let (final, descriptions) ← applyAll applied.profile rest
      return (final,
        if applied.description = "" then descriptions else applied.description :: descriptions)

/-- What an effect would do, for authors; empty when it changes nothing. -/
def describe : Effect → Except ArithmeticFault String
  | .scoreDelta (some score) (some delta) =>
      if score = "" then .ok ""
      else do
        let sign := if Number.le 0 delta then "+" else ""
        return score ++ " " ++ sign ++ (← delta.plain)
  | .addTag (some tag) => .ok (if tag = "" then "" else s!"add tag \"{tag}\"")
  | .removeTag (some tag) => .ok (if tag = "" then "" else s!"remove tag \"{tag}\"")
  | _ => .ok ""

end Effect

end NextOffer
