import NextOffer.Proofs.Evaluation.Replay
import NextOffer.Proofs.ProfileDiff

/-! # The ledger of a batch

The trace of a batch accounts for the difference between the profile before and after. Each
score changed by the sum of what the rules of the trace gave to it, and each tag came or went
as the last of their effects about it says.
-/

namespace NextOffer

/-- The effects of the rules that a trace names, in its order. -/
def Trace.effects (rules : List Rule) (trace : List TraceEntry) : List Effect :=
  trace.flatMap fun entry =>
    match Rule.withId? rules entry.ruleId with
    | some rule => rule.effects
    | none => []

theorem Trace.effects_of_fired {rules fired : List Rule} {trace : List TraceEntry}
    (known : ∀ rule ∈ fired, Rule.withId? rules rule.id = some rule)
    (named : trace.map TraceEntry.ruleId = fired.map Rule.id) :
    effects rules trace = fired.flatMap Rule.effects := by
  induction fired generalizing trace with
  | nil =>
      obtain rfl : trace = [] := by simpa using named
      rfl
  | cons rule fired ih =>
      obtain ⟨entry, rest, rfl, first, later⟩ := List.map_eq_cons_iff.mp named
      obtain ⟨found, known⟩ := List.forall_mem_cons.mp known
      simp only [effects, List.flatMap_cons, first, found]
      exact congrArg (rule.effects ++ ·) (ih known later)

/-- The difference between two profiles, as the rules of a trace account for it. -/
structure Trace.Settles (rules : List Rule) (trace : List TraceEntry) (before : Profile)
    (diff : ProfileDiff) : Prop where
  /-- A listed score changed by all that the rules of the entries give to it. -/
  listed : ∀ change ∈ diff.scores,
    change.delta = .int (Effect.gain change.name (effects rules trace))
  /-- They give nothing to a score that is not listed. -/
  unlisted : ∀ name, (∀ change ∈ diff.scores, change.name ≠ name) →
    Effect.gain name (effects rules trace) = 0
  /-- Tags came by a last effect that adds them. -/
  added : ∀ tag, tag ∈ diff.added ↔
    tag ∉ before.tags ∧ (Effect.tagChanges tag (effects rules trace)).getLast? = some true
  /-- Tags went by a last effect that removes them. -/
  removed : ∀ tag, tag ∈ diff.removed ↔
    tag ∈ before.tags ∧ (Effect.tagChanges tag (effects rules trace)).getLast? = some false

theorem Trace.settles_of_leads {rules : List Rule} {trace : List TraceEntry}
    {before after : Profile} (leads : Effect.Leads before (effects rules trace) after)
    (distinctTags : before.tags.Nodup) (wholeScores : before.HasWholeScores)
    (wholeDeltas : ∀ effect ∈ effects rules trace, effect.HasWholeDelta) :
    ∃ diff, ProfileDiff.of before after = .ok diff ∧ Settles rules trace before diff := by
  have wholeAfter := leads.whole wholeScores wholeDeltas
  have points := leads.points wholeScores wholeDeltas
  have tags := leads.hasTag distinctTags
  obtain ⟨diff, found, scores, added, removed⟩ := ProfileDiff.of_whole wholeScores wholeAfter
  refine ⟨diff, found, ?_, ?_, ?_, ?_⟩
  · intro change member
    rw [scores] at member
    obtain ⟨name, -, rfl⟩ := List.mem_map.mp member
    simp only [ProfileDiff.pointsChange, points]
    congr 1
    omega
  · intro name absent
    have fresh : name ∉ ProfileDiff.scoreNames before after := by
      intro listed
      exact absent _ (scores ▸ List.mem_map_of_mem listed) rfl
    simp only [ProfileDiff.scoreNames, List.mem_eraseDups, List.mem_append, not_or] at fresh
    have change := points name
    rw [wholeScores.points_eq, wholeAfter.points_eq, Fields.get?_eq_none_iff.mpr fresh.1,
      Fields.get?_eq_none_iff.mpr fresh.2] at change
    simpa using change.symm
  · intro tag
    rw [added, tags]
    cases (Effect.tagChanges tag (effects rules trace)).getLast? <;>
      simp [Profile.hasTag, and_comm]
  · intro tag
    rw [removed, tags]
    cases (Effect.tagChanges tag (effects rules trace)).getLast? <;> simp [Profile.hasTag]

/-- The trace of an evaluation settles the difference that it makes, for rules without repeated
    ids and where all scores and changes are integers. -/
theorem evaluate_settled (rules : List Rule) (profile : Profile) (events : List Event)
    (now : Timestamp) (result : Evaluation) (distinct : (rules.map Rule.id).Nodup)
    (distinctTags : profile.tags.Nodup) (wholeScores : profile.HasWholeScores)
    (wholeDeltas : ∀ rule ∈ rules, ∀ effect ∈ rule.effects, effect.HasWholeDelta)
    (returned : evaluate rules profile events now = .ok result) :
    ∃ diff, ProfileDiff.of profile result.profile = .ok diff ∧
      Trace.Settles rules result.trace profile diff := by
  obtain ⟨fired, final, active, named, leads, stamped⟩ := evaluate_fired_rules returned
  have known : ∀ rule ∈ fired, Rule.withId? rules rule.id = some rule :=
    fun rule member => Rule.withId?_of_mem distinct (active rule member).1
  have effects := Trace.effects_of_fired known named
  rw [← effects] at leads
  have wholeEffects : ∀ effect ∈ Trace.effects rules result.trace, effect.HasWholeDelta := by
    intro effect member
    rw [effects] at member
    obtain ⟨rule, inside, listed⟩ := List.mem_flatMap.mp member
    exact wholeDeltas rule (active rule inside).1 effect listed
  -- A difference looks at scores and tags only, so the stamp does not show in it.
  have unstamped : ProfileDiff.of profile result.profile = ProfileDiff.of profile final := by
    rw [stamped]
    rfl
  rw [unstamped]
  exact Trace.settles_of_leads leads distinctTags wholeScores wholeEffects

namespace Rule

def welcome : Rule :=
  { id := "welcome", name := "Welcome", status := .active, event := .login
    effects := [.scoreDelta (some "visits") (some 1), .removeTag (some "dormant")] }

def doze : Rule :=
  { id := "doze", name := "Doze", status := .active, event := .salaryCredit
    effects := [.addTag (some "dormant")] }

def dormant (visits : Fields Number) (tags : List String) : Profile :=
  { customerId := "C1", scores := visits, tags }

def wokenTwice (now : Timestamp) : Evaluation where
  profile := { dormant [("visits", .int 2)] [] with lastUpdated := some now }
  trace := [⟨"welcome", "Welcome", "visits +1 (0 → 1); Removed tag \"dormant\""⟩,
    ⟨"doze", "Doze", "Added tag \"dormant\""⟩,
    ⟨"welcome", "Welcome", "visits +1 (1 → 2); Removed tag \"dormant\""⟩]

theorem evaluate_wokenTwice (now : Timestamp) :
    evaluate [doze, welcome] (dormant [] ["dormant"])
      [⟨.login, []⟩, ⟨.salaryCredit, []⟩, ⟨.login, []⟩] now = .ok (wokenTwice now) := by
  have counts {before after : Profile} {n : Nat} {text : String}
      (old : before.score "visits" = .int n)
      (told : Effect.changeText "visits" 1 (.int n) (.int (n + 1)) = .ok text)
      (later : Effect.applyAll { before with
          scores := before.scores.set "visits" (.int (n + 1)) } [.removeTag (some "dormant")] =
        .ok (after, ["Removed tag \"dormant\""])) :
      welcome.turn ⟨.login, []⟩ before =
        .ok (some ⟨after, [text, "Removed tag \"dormant\""]⟩) := by
    have sum : (before.score "visits").add 1 = .ok (.int (n + 1)) := by
      rw [old]
      rfl
    exact turn_eq_some_iff.mpr ⟨rfl,
      Effect.applyAll_scoreDelta_cons (by decide) sum (old ▸ told) later⟩
  have first : welcome.turn ⟨.login, []⟩ (dormant [] ["dormant"]) =
      .ok (some ⟨dormant [("visits", .int 1)] [],
        ["visits +1 (0 → 1)", "Removed tag \"dormant\""]⟩) :=
    @counts _ _ 0 _ rfl (by decide +kernel) rfl
  have second : doze.turn ⟨.salaryCredit, []⟩ (dormant [("visits", .int 1)] []) =
      .ok (some ⟨dormant [("visits", .int 1)] ["dormant"], ["Added tag \"dormant\""]⟩) := rfl
  have third : welcome.turn ⟨.login, []⟩ (dormant [("visits", .int 1)] ["dormant"]) =
      .ok (some ⟨dormant [("visits", .int 2)] [],
        ["visits +1 (1 → 2)", "Removed tag \"dormant\""]⟩) :=
    @counts _ _ 1 _ rfl (by decide +kernel) rfl
  have sorted : sortActive [doze, welcome] = [doze, welcome] := by
    simp [sortActive, doze, welcome, isActive, List.mergeSort, List.MergeSort.Internal.splitInTwo]
  refine evaluate_eq_ok_iff.mpr ⟨dormant [("visits", .int 2)] [], ?_, rfl⟩
  rw [sorted]
  exact .fired first (.fired second (.fired third (.done _)))

/-- Two visits are counted, and the tag that comes back in between is gone in the end. -/
theorem evaluate_settled_wokenTwice :
    ([doze, welcome].map id).Nodup ∧ (dormant [] ["dormant"]).tags.Nodup ∧
    (dormant [] ["dormant"]).HasWholeScores ∧
    (∀ rule ∈ [doze, welcome], ∀ effect ∈ rule.effects, effect.HasWholeDelta) ∧
    ∃ now : Timestamp,
      evaluate [doze, welcome] (dormant [] ["dormant"])
        [⟨.login, []⟩, ⟨.salaryCredit, []⟩, ⟨.login, []⟩] now = .ok (wokenTwice now) ∧
      ∃ diff, ProfileDiff.of (dormant [] ["dormant"]) (wokenTwice now).profile = .ok diff ∧
        Trace.Settles [doze, welcome] (wokenTwice now).trace (dormant [] ["dormant"]) diff := by
  have distinct : ([doze, welcome].map id).Nodup := by decide
  have distinctTags : (dormant [] ["dormant"]).tags.Nodup := by decide
  have wholeScores : (dormant [] ["dormant"]).HasWholeScores := by
    simp [Profile.HasWholeScores, dormant, Fields.get?]
  have wholeDeltas :
      ∀ rule ∈ [doze, welcome], ∀ effect ∈ rule.effects, effect.HasWholeDelta := by
    have one : Number.IsWhole 1 := ⟨1, rfl⟩
    simp [doze, welcome, Effect.HasWholeDelta, Effect.scoreChange?, one]
  have returned := evaluate_wokenTwice (.midnight ⟨2026, 2, 5, by decide⟩ none)
  exact ⟨distinct, distinctTags, wholeScores, wholeDeltas, _, returned,
    evaluate_settled _ _ _ _ _ distinct distinctTags wholeScores wholeDeltas returned⟩

end Rule

end NextOffer
