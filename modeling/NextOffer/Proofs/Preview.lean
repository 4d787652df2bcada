import NextOffer.Preview
import NextOffer.Proofs.Evaluation.Description
import NextOffer.Proofs.Evaluation.Inert
import NextOffer.Proofs.Evaluation.Overflow

/-! # What previews foretell

A preview tells of the effects of a rule before the rule is published, and a trace tells of them
after they have been applied. Both leave out the same effects: those that lack a field, which
never change a profile either. A change of a score is told in the same words both times, and the
values before and after are added once they are known. A change that cannot be written has no
preview and is never applied.
-/

namespace NextOffer

namespace Effect

variable {effect : Effect}

/-- Applied to the profile, the effect says nothing and leaves scores and tags. -/
def IdleOn (effect : Effect) (profile : Profile) : Prop :=
  ∃ applied, effect.apply profile = .ok applied ∧ applied.description = "" ∧
    applied.profile.scores = profile.scores ∧ applied.profile.tags = profile.tags

/-- The effect changes the scores or the tags of some profile. -/
def CanChange (effect : Effect) : Prop :=
  ∃ profile applied, profile.WellFormed ∧ effect.apply profile = .ok applied ∧
    (applied.profile.scores ≠ profile.scores ∨ applied.profile.tags ≠ profile.tags)

/-- A rule with this effect alone leaves a text in some trace. -/
def CanAppear (effect : Effect) : Prop :=
  ∃ (rule : Rule) (profile : Profile) (events : List Event) (now : Timestamp)
    (result : Evaluation), rule.effects = [effect] ∧
    evaluate [rule] profile events now = .ok result ∧
    ∃ entry ∈ result.trace, entry.effectDescription ≠ ""

/-- If the effect is a change of a score, the change can be written. -/
def IsWritable (effect : Effect) : Prop :=
  ∀ name delta, effect.scoreChange? = some (name, delta) → delta.isWritable = true

theorem describe_scoreDelta {score : String} (named : score ≠ "") (delta : Number) :
    describe (.scoreDelta (some score) (some delta)) =
      delta.plain.map fun text => score ++ " " ++ plusSign delta ++ text := by
  rw [describe, if_neg named]
  cases delta.plain <;> rfl

/-- The preview of the effect is this text, and it is not empty. -/
def Shows (effect : Effect) (text : String) : Prop := effect.describe = .ok text ∧ text ≠ ""

theorem describe_eq_empty_iff : effect.describe = .ok "" ↔ effect.isComplete = false := by
  cases effect with
  | scoreDelta score delta =>
      cases score with
      | none => simp [describe, isComplete]
      | some score =>
          cases delta with
          | none => simp [describe, isComplete]
          | some delta =>
              by_cases empty : score = ""
              · simp [describe, isComplete, empty]
              · rw [describe_scoreDelta empty]
                cases delta.plain <;> simp [isComplete, empty, Except.map]
  | addTag tag | removeTag tag =>
      cases tag with
      | none => simp [describe, isComplete]
      | some tag => by_cases empty : tag = "" <;> simp [describe, isComplete, empty, toString]

theorem describe_returns_iff : (∃ text, effect.describe = .ok text) ↔ effect.IsWritable := by
  cases effect with
  | scoreDelta score delta =>
      cases score with
      | none => simp [describe, IsWritable, scoreChange?]
      | some score =>
          cases delta with
          | none => simp [describe, IsWritable, scoreChange?]
          | some delta =>
              by_cases empty : score = ""
              · simp [describe, IsWritable, scoreChange?, empty]
              · rw [describe_scoreDelta empty, Number.plain]
                cases writable : delta.isWritable <;>
                  simp [IsWritable, scoreChange?, empty, writable, Except.map]
  | addTag tag | removeTag tag => cases tag <;> simp [describe, IsWritable, scoreChange?]

theorem exists_shows_iff :
    (∃ text, effect.Shows text) ↔ effect.isComplete = true ∧ effect.IsWritable := by
  rw [← describe_returns_iff, ← Bool.not_eq_false, ← describe_eq_empty_iff.not]
  constructor
  · rintro ⟨text, told, spoken⟩
    refine ⟨fun empty => spoken ?_, text, told⟩
    exact Except.ok.inj (told.symm.trans empty)
  · rintro ⟨spoken, text, told⟩
    exact ⟨text, told, fun empty => spoken (empty ▸ told)⟩

theorem isWritable_of_apply {profile : Profile} {applied : Applied}
    (done : effect.apply profile = .ok applied) : effect.IsWritable := by
  intro name delta complete
  obtain ⟨value, text, -, told, -⟩ := (apply_eq_ok_iff_of_scoreChange? complete).mp done
  exact (changeText_eq_ok_iff.mp told).1.1

theorem idleOn_of_incomplete (incomplete : effect.isComplete = false) (profile : Profile) :
    effect.IdleOn profile :=
  ⟨_, apply_of_incomplete incomplete profile, rfl, rfl, rfl⟩

/-- A profile on which the effect shows: it has no scores, and only the tag that the effect
    removes. -/
def stage (effect : Effect) : Profile where
  customerId := "C1"
  tags :=
    match effect.tagChange? with
    | some (tag, false) => [tag]
    | _ => []

theorem wellFormed_stage (effect : Effect) : effect.stage.WellFormed where
  tags := by
    unfold stage
    dsimp only
    split
    · exact List.nodup_singleton _
    · exact List.nodup_nil
  scoreNames := List.nodup_nil

theorem isWritable_of_zero_add {delta value : Number}
    (sum : (Number.int 0).add delta = .ok value) : value.isWritable = delta.isWritable := by
  cases delta with
  | int n =>
      have told : value = .int (0 + n) := (Except.ok.inj sum).symm
      rw [told, Int.zero_add]
  | real x =>
      obtain ⟨_, _, told⟩ := Outcome.bind_eq_ok_iff.mp sum
      cases told
      rfl

theorem apply_stage_returns (writable : effect.IsWritable) :
    ∃ applied, effect.apply effect.stage = .ok applied := by
  cases done : effect.apply effect.stage with
  | ok applied => exact ⟨applied, rfl⟩
  | error fault =>
      have zero : ¬ Binary64.Oversized 0 ∧ (Number.int 0).isWritable = true := by
        unfold Binary64.Oversized
        decide +kernel
      cases apply_eq_error_iff.mp done with
      | @sum name delta named clash =>
          cases delta with
          | int n => exact clash.elim
          | real value => exact absurd clash zero.1
      | @description name delta value named sum unwritable =>
          have short : delta.isWritable = true := writable name delta (if_neg named)
          rcases unwritable with long | long | long
          · exact absurd (short.symm.trans long) nofun
          · exact absurd (zero.2.symm.trans long) nofun
          · exact absurd (short.symm.trans ((isWritable_of_zero_add sum).symm.trans long)) nofun

theorem exists_change_of_isComplete (complete : effect.isComplete = true) :
    (∃ change, effect.scoreChange? = some change) ∨ ∃ change, effect.tagChange? = some change := by
  unfold isComplete at complete
  split at complete
  · exact .inl ⟨_, if_neg (by simpa using complete)⟩
  · exact .inr ⟨_, if_neg (by simpa using complete)⟩
  · exact .inr ⟨_, if_neg (by simpa using complete)⟩
  · cases complete

theorem changes_stage (complete : effect.isComplete = true) {final : Profile}
    (change : Changes effect.stage effect final) :
    final.scores ≠ effect.stage.scores ∨ final.tags ≠ effect.stage.tags := by
  cases change with
  | scored =>
      left
      simp [stage, Fields.set]
  | added told =>
      right
      simp [stage, told]
  | removed told =>
      right
      simp [stage, told]
  | nothing scoreless tagless =>
      rcases exists_change_of_isComplete complete with ⟨_, scored⟩ | ⟨_, told⟩
      · simp [scoreless] at scored
      · simp [tagless] at told

theorem canChange_of_isComplete (complete : effect.isComplete = true)
    (writable : effect.IsWritable) : effect.CanChange := by
  obtain ⟨applied, done⟩ := apply_stage_returns writable
  exact ⟨_, applied, wellFormed_stage effect, done, changes_stage complete (apply_changes done)⟩

/-- A rule that applies one effect at every login. -/
def atLogin (effect : Effect) : Rule :=
  { id := "r1", name := "At login", status := .active, event := .login, effects := [effect] }

theorem canAppear_of_isComplete (complete : effect.isComplete = true)
    (writable : effect.IsWritable) : effect.CanAppear := by
  obtain ⟨applied, done⟩ := apply_stage_returns writable
  have told : applied.description ≠ "" := by
    intro silent
    have kept := unchanged_of_silent done silent
    have changed := changes_stage complete (apply_changes done)
    simp [kept] at changed
  have turn : effect.atLogin.turn ⟨.login, []⟩ effect.stage =
      .ok (some ⟨applied.profile, [applied.description]⟩) := by
    rw [Rule.turn_eq_some_iff]
    refine ⟨rfl, ?_⟩
    simp [atLogin, applyAll, done, told]
  have sorted : Rule.sortActive [effect.atLogin] = [effect.atLogin] := by
    simp [Rule.sortActive, atLogin, Rule.isActive]
  have runs : Agenda.Runs effect.stage
      (Agenda.ofEvents (Rule.sortActive [effect.atLogin]) [⟨.login, []⟩]) applied.profile
      [effect.atLogin.entry ⟨applied.profile, [applied.description]⟩] := by
    rw [sorted]
    exact .fired turn (.done _)
  let now : Timestamp := .midnight ⟨2026, 2, 5, by decide⟩ none
  let result : Evaluation := {
    profile := { applied.profile with lastUpdated := some now }
    trace := [effect.atLogin.entry ⟨applied.profile, [applied.description]⟩] }
  have returned : evaluate [effect.atLogin] effect.stage [⟨.login, []⟩] now = .ok result :=
    evaluate_eq_ok_iff.mpr ⟨applied.profile, runs, rfl⟩
  refine ⟨_, _, _, now, result, rfl, returned, _, List.mem_singleton_self _, ?_⟩
  simpa [Rule.entry] using told

theorem isComplete_of_canChange (can : effect.CanChange) : effect.isComplete = true := by
  obtain ⟨profile, applied, -, done, changed⟩ := can
  by_contra incomplete
  rw [Bool.not_eq_true] at incomplete
  rw [apply_of_incomplete incomplete] at done
  cases done
  simp at changed

theorem exists_applied_of_canAppear (can : effect.CanAppear) :
    ∃ profile applied, effect.apply profile = .ok applied ∧ applied.description ≠ "" := by
  obtain ⟨rule, profile, events, now, result, alone, returned, entry, member, told⟩ := can
  obtain ⟨final, runs, -⟩ := evaluate_eq_ok_iff.mp returned
  obtain ⟨front, back, whole⟩ := List.append_of_mem member
  rw [whole] at runs
  obtain ⟨before, event, rule', after, current, firing, turns, -, fired, rfl, -⟩ :=
    runs.exists_turn
  have taken : (event, rule') ∈ Agenda.ofEvents (Rule.sortActive [rule]) events := by
    simp [turns]
  obtain rfl : rule' = rule := List.mem_singleton.mp (Agenda.active_of_mem taken).1
  have done := (Rule.turn_eq_some_iff.mp fired).2
  rw [alone] at done
  obtain ⟨applied, here, later⟩ := Outcome.bind_eq_ok_iff.mp done
  refine ⟨current, applied, here, fun silent => told ?_⟩
  simp only [applyAll, Outcome.ok_bind, silent, if_true] at later
  have none : [] = firing.descriptions := congrArg Prod.snd (Except.ok.inj later)
  simp [Rule.entry, ← none]

theorem isComplete_of_told {profile : Profile} {applied : Applied}
    (done : effect.apply profile = .ok applied) (told : applied.description ≠ "") :
    effect.isComplete = true := by
  by_contra incomplete
  rw [Bool.not_eq_true] at incomplete
  rw [apply_of_incomplete incomplete] at done
  cases done
  exact told rfl

/-- What is told of a change of a score is its preview, followed by both values. -/
theorem description_of_scoreChange? {name : String} {delta : Number}
    (complete : effect.scoreChange? = some (name, delta)) {profile : Profile} {applied : Applied}
    (done : effect.apply profile = .ok applied) :
    ∃ preview old value new, effect.describe = .ok preview ∧
      (profile.score name).plain = .ok old ∧
      applied.profile.scores.get? name = some value ∧ value.plain = .ok new ∧
      applied.description = preview ++ s!" ({old} → {new})" := by
  obtain ⟨value, text, -, told, rfl⟩ := (apply_eq_ok_iff_of_scoreChange? complete).mp done
  obtain ⟨named, rfl⟩ := scoreChange?_eq_some_iff.mp complete
  obtain ⟨⟨short, found, left⟩, rfl⟩ := changeText_eq_ok_iff.mp told
  refine ⟨name ++ " " ++ plusSign delta ++ delta.plainText, (profile.score name).plainText, value,
    value.plainText, ?_, Number.plain_of_isWritable found, ?_, Number.plain_of_isWritable left, ?_⟩
  · rw [describe_scoreDelta named, Number.plain_of_isWritable short]
    rfl
  · simp [Fields.get?_set]
  · simp [changeSpelling, toString, String.append_assoc]

end Effect

theorem literalText_returns_iff {value : Json.Value} :
    (∃ text, literalText value = .ok text) ↔ value.isWritable = true := by
  have rendered (literal : Json.Value) :
      (∃ text, Json.Form.compact.render literal = .ok text) ↔ literal.isWritable = true := by
    simp [Json.Form.render_eq_ok_iff]
  unfold literalText
  split
  case h_1 x =>
      split
      · rw [rendered]
        exact iff_of_true (Number.isWritable_truncate x) rfl
      · exact rendered _
  case h_2 => exact rendered _

theorem Condition.preview_returns_iff {condition : Condition} :
    (∃ text, condition.preview = .ok text) ↔ condition.target.isWritable = true := by
  rw [← literalText_returns_iff, preview]
  cases literalText condition.target <;> simp

/-- What the preview of a rule foretells. -/
structure Rule.Foretells (rule : Rule) : Prop where
  /-- Effects with an empty preview are those that are idle on every profile. -/
  silent : ∀ effect : Effect, effect.describe = .ok "" ↔ ∀ profile, effect.IdleOn profile
  /-- The preview of a change of a score is told again with the value that was read and the
      value that was stored. -/
  told : ∀ (effect : Effect) (name : String) (delta : Number) (profile : Profile)
    (applied : Applied), effect.scoreChange? = some (name, delta) →
    effect.apply profile = .ok applied →
    ∃ preview old value new, effect.describe = .ok preview ∧
      (profile.score name).plain = .ok old ∧
      applied.profile.scores.get? name = some value ∧ value.plain = .ok new ∧
      applied.description = preview ++ s!" ({old} → {new})"
  /-- Behind its conditions the preview lists the complete effects, in their order. -/
  listed : ∀ text, rule.conditions ≠ [] → rule.effects ≠ [] → rule.preview = .ok text →
    ∃ given done, List.Forall₂ (fun condition line => condition.preview = .ok line)
        rule.conditions given ∧
      List.Forall₂ Effect.Shows (rule.effects.filter Effect.isComplete) done ∧
      text = "When **" ++ rule.event.phrase ++ "** and " ++ " and ".intercalate given ++ " → " ++
        ", ".intercalate done
  /-- There is such a preview whenever its numbers can be written. -/
  previewed : (∃ text, rule.preview = .ok text) ↔
    rule.conditions = [] ∨ rule.effects = [] ∨
      (∀ condition ∈ rule.conditions, condition.target.isWritable = true) ∧
        ∀ effect ∈ rule.effects, effect.IsWritable
  /-- The effects that are left out have empty previews. -/
  complete : ∀ effect : Effect, effect.isComplete = false ↔ effect.describe = .ok ""
  /-- Effects with other previews are those that can change a profile, -/
  canChange : ∀ effect : Effect, (∃ text, effect.Shows text) ↔ effect.CanChange
  /-- and those that can appear in a trace. -/
  canAppear : ∀ effect : Effect, (∃ text, effect.Shows text) ↔ effect.CanAppear

theorem Effect.shows_filter {effects : List Effect} {texts : List String}
    (told : List.Forall₂ (fun effect text => effect.describe = .ok text) effects texts) :
    List.Forall₂ Shows (effects.filter isComplete) (texts.filter (· ≠ "")) := by
  induction told with
  | nil => exact .nil
  | @cons effect text _ _ first _ ih =>
      cases complete : effect.isComplete with
      | true =>
          have spoken : text ≠ "" := by
            rintro rfl
            rw [describe_eq_empty_iff.mp first] at complete
            cases complete
          rw [List.filter_cons_of_pos complete, List.filter_cons_of_pos (by simpa using spoken)]
          exact .cons ⟨first, spoken⟩ ih
      | false =>
          obtain rfl := Except.ok.inj (first.symm.trans (describe_eq_empty_iff.mpr complete))
          rwa [List.filter_cons_of_neg (by simp [complete]), List.filter_cons_of_neg (by simp)]

namespace Rule

variable {rule : Rule}

theorem preview_of_complete (conditions : rule.conditions ≠ []) (effects : rule.effects ≠ []) :
    rule.preview = do
      let given ← rule.conditions.mapM Condition.preview
      let done ← rule.effects.mapM Effect.describe
      return "When **" ++ rule.event.phrase ++ "** and " ++ " and ".intercalate given ++ " → " ++
        ", ".intercalate (done.filter (· ≠ "")) := by
  rw [preview, if_neg (by simp [conditions, effects])]
  simp [toString, String.append_assoc]

theorem preview_returns_iff : (∃ text, rule.preview = .ok text) ↔
    rule.conditions = [] ∨ rule.effects = [] ∨
      (∀ condition ∈ rule.conditions, condition.target.isWritable = true) ∧
        ∀ effect ∈ rule.effects, effect.IsWritable := by
  by_cases conditions : rule.conditions = []
  · simp [preview, conditions]
  by_cases effects : rule.effects = []
  · simp [preview, effects]
  rw [preview_of_complete conditions effects]
  simp only [conditions, effects, false_or, ← Condition.preview_returns_iff,
    ← Effect.describe_returns_iff, ← Outcome.mapM_returns_iff]
  cases rule.conditions.mapM Condition.preview <;> cases rule.effects.mapM Effect.describe <;>
    simp

/-- A preview tells of exactly the effects that can do something. -/
theorem preview_foretells (rule : Rule) : rule.Foretells where
  silent effect := by
    constructor
    · intro empty profile
      exact Effect.idleOn_of_incomplete (Effect.describe_eq_empty_iff.mp empty) profile
    · intro idle
      rw [Effect.describe_eq_empty_iff]
      by_contra complete
      rw [Bool.not_eq_false] at complete
      obtain ⟨applied, done, -⟩ := idle effect.stage
      obtain ⟨profile, applied, -, done, changed⟩ :=
        Effect.canChange_of_isComplete complete (Effect.isWritable_of_apply done)
      obtain ⟨applied', done', -, scores, tags⟩ := idle profile
      obtain rfl := Except.ok.inj (done.symm.trans done')
      simp [scores, tags] at changed
  told effect name delta profile applied complete done :=
    Effect.description_of_scoreChange? complete done
  listed text conditions effects previewed := by
    rw [preview_of_complete conditions effects] at previewed
    obtain ⟨given, conditions, later⟩ := Outcome.bind_eq_ok_iff.mp previewed
    obtain ⟨done, effects, same⟩ := Outcome.bind_eq_ok_iff.mp later
    exact ⟨given, _, Outcome.mapM_eq_ok_iff.mp conditions,
      Effect.shows_filter (Outcome.mapM_eq_ok_iff.mp effects), (Except.ok.inj same).symm⟩
  previewed := preview_returns_iff
  complete _ := Effect.describe_eq_empty_iff.symm
  canChange effect := by
    rw [Effect.exists_shows_iff]
    constructor
    · exact fun shown => Effect.canChange_of_isComplete shown.1 shown.2
    · rintro ⟨profile, applied, wellFormed, done, changed⟩
      exact ⟨Effect.isComplete_of_canChange ⟨profile, applied, wellFormed, done, changed⟩,
        Effect.isWritable_of_apply done⟩
  canAppear effect := by
    rw [Effect.exists_shows_iff]
    constructor
    · exact fun shown => Effect.canAppear_of_isComplete shown.1 shown.2
    · intro can
      obtain ⟨profile, applied, done, told⟩ := Effect.exists_applied_of_canAppear can
      exact ⟨Effect.isComplete_of_told done told, Effect.isWritable_of_apply done⟩

end Rule

end NextOffer
