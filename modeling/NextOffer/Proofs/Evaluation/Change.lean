import Mathlib.Data.List.Nodup
import NextOffer.Proofs.Evaluation.Agenda
import NextOffer.Proofs.WellFormed
import NextOffer.Proofs.Writing

/-! # What effects change

An effect that is complete writes one score or sets the presence of one tag, and nothing else
of a profile ever changes. Whatever a run does to a profile is therefore told by the effects
that it applies, in their order: which scores they write, by how much, and which of them
speaks last about a tag.
-/

namespace NextOffer

namespace Effect

/-- The score that a complete effect writes, and the change. -/
def scoreChange? : Effect → Option (String × Number)
  | .scoreDelta (some name) (some delta) => if name = "" then none else some (name, delta)
  | _ => none

/-- The tag that a complete effect speaks about, and whether it adds the tag or removes it. -/
def tagChange? : Effect → Option (String × Bool)
  | .addTag (some tag) => if tag = "" then none else some (tag, true)
  | .removeTag (some tag) => if tag = "" then none else some (tag, false)
  | _ => none

theorem scoreChange?_eq_some_iff {effect : Effect} {name : String} {delta : Number} :
    effect.scoreChange? = some (name, delta) ↔
      name ≠ "" ∧ effect = .scoreDelta (some name) (some delta) := by
  unfold scoreChange?
  split
  case h_1 other change =>
      by_cases empty : other = ""
      · simp only [empty, if_true, reduceCtorEq, false_iff, not_and]
        rintro named ⟨⟩
        exact named rfl
      · simp only [empty, if_false, Option.some.injEq, Prod.mk.injEq, scoreDelta.injEq]
        constructor
        · rintro ⟨rfl, rfl⟩
          exact ⟨empty, rfl, rfl⟩
        · exact And.right
  case h_2 different =>
      simp only [reduceCtorEq, false_iff, not_and]
      rintro - rfl
      exact different _ _ rfl

theorem apply_eq_ok_iff_of_scoreChange? {effect : Effect} {name : String} {delta : Number}
    (complete : effect.scoreChange? = some (name, delta)) {profile : Profile} {applied : Applied} :
    effect.apply profile = .ok applied ↔
      ∃ value text, (profile.score name).add delta = .ok value ∧
        changeText name delta (profile.score name) value = .ok text ∧
        applied = ⟨{ profile with scores := profile.scores.set name value }, text⟩ := by
  obtain ⟨named, rfl⟩ := scoreChange?_eq_some_iff.mp complete
  simp only [apply, if_neg named, Outcome.bind_eq_ok_iff, Outcome.pure_eq, Except.ok.injEq]
  constructor
  · rintro ⟨value, sum, text, told, rfl⟩
    exact ⟨value, text, sum, told, rfl⟩
  · rintro ⟨value, text, sum, told, rfl⟩
    exact ⟨value, sum, text, told, rfl⟩

theorem applyAll_scoreDelta_cons {profile final : Profile} {name text : String}
    {delta value : Number} {rest : List Effect} {texts : List String} (named : name ≠ "")
    (sum : (profile.score name).add delta = .ok value)
    (told : changeText name delta (profile.score name) value = .ok text)
    (later : applyAll { profile with scores := profile.scores.set name value } rest =
      .ok (final, texts)) :
    applyAll profile (.scoreDelta (some name) (some delta) :: rest) =
      .ok (final, text :: texts) := by
  have complete : (scoreDelta (some name) (some delta)).scoreChange? = some (name, delta) :=
    if_neg named
  have done := (apply_eq_ok_iff_of_scoreChange? complete).mpr ⟨value, text, sum, told, rfl⟩
  simp [applyAll, done, later, changeText_ne_empty told]

/-- What applying an effect does to a profile. -/
inductive Changes (profile : Profile) (effect : Effect) : Profile → Prop where
  | scored {name delta value} (complete : effect.scoreChange? = some (name, delta))
      (tagless : effect.tagChange? = none) (sum : (profile.score name).add delta = .ok value) :
      Changes profile effect { profile with scores := profile.scores.set name value }
  | added {tag} (complete : effect.tagChange? = some (tag, true))
      (scoreless : effect.scoreChange? = none) :
      Changes profile effect
        { profile with tags := if tag ∈ profile.tags then profile.tags else profile.tags ++ [tag] }
  | removed {tag} (complete : effect.tagChange? = some (tag, false))
      (scoreless : effect.scoreChange? = none) :
      Changes profile effect { profile with tags := profile.tags.erase tag }
  | nothing (scoreless : effect.scoreChange? = none) (tagless : effect.tagChange? = none) :
      Changes profile effect profile

theorem apply_changes {profile : Profile} {effect : Effect} {applied : Applied}
    (done : effect.apply profile = .ok applied) : Changes profile effect applied.profile := by
  unfold apply at done
  split at done
  case h_1 name delta =>
    split at done
    case isTrue empty =>
        cases done
        exact .nothing (by simp [scoreChange?, empty]) rfl
    case isFalse named =>
        obtain ⟨value, sum, told⟩ := Outcome.bind_eq_ok_iff.mp done
        obtain ⟨text, -, same⟩ := Outcome.bind_eq_ok_iff.mp told
        cases same
        exact .scored (by simp [scoreChange?, named]) rfl sum
  case h_2 tag =>
    by_cases empty : tag = ""
    · simp only [empty, true_or, if_true] at done
      cases done
      exact .nothing rfl (by simp [tagChange?, empty])
    · have step := @Changes.added profile (.addTag (some tag)) tag
        (by simp [tagChange?, empty]) rfl
      simp only [Profile.hasTag, empty, false_or, List.contains_iff_mem] at done
      split at done
      case isTrue present =>
          cases done
          simpa [present] using step
      case isFalse absent =>
          cases done
          simpa [absent] using step
  case h_3 tag =>
    by_cases empty : tag = ""
    · simp only [empty, true_or, if_true] at done
      cases done
      exact .nothing rfl (by simp [tagChange?, empty])
    · have step := @Changes.removed profile (.removeTag (some tag)) tag
        (by simp [tagChange?, empty]) rfl
      simp only [Profile.hasTag, empty, false_or] at done
      split at done
      case isTrue absent =>
          cases done
          rwa [List.erase_of_not_mem (by simpa using absent)] at step
      case isFalse present =>
          cases done
          exact step
  case h_4 noScore noAdd noRemove =>
    cases done
    refine .nothing ?_ ?_
    · unfold scoreChange?
      split
      · exact (noScore _ _ rfl).elim
      · rfl
    · unfold tagChange?
      split
      · exact (noAdd _ rfl).elim
      · exact (noRemove _ rfl).elim
      · rfl

/-- Effects applied one after another, from one profile to another. -/
inductive Leads : Profile → List Effect → Profile → Prop where
  | done (profile) : Leads profile [] profile
  | step {profile effect middle rest final} (change : Changes profile effect middle)
      (later : Leads middle rest final) : Leads profile (effect :: rest) final

theorem Leads.append {profile middle final : Profile} {front rest : List Effect}
    (first : Leads profile front middle) (second : Leads middle rest final) :
    Leads profile (front ++ rest) final := by
  induction first with
  | done => exact second
  | step change _ ih => exact .step change (ih second)

theorem applyAll_leads {profile final : Profile} {effects : List Effect} {texts : List String}
    (done : applyAll profile effects = .ok (final, texts)) : Leads profile effects final := by
  induction effects generalizing profile texts with
  | nil => cases done; exact .done _
  | cons effect rest ih =>
      obtain ⟨change, applied, later⟩ := Outcome.bind_eq_ok_iff.mp done
      obtain ⟨⟨last, told⟩, reached, same⟩ := Outcome.bind_eq_ok_iff.mp later
      cases same
      exact .step (apply_changes applied) (ih reached)

/-- The changes of one score, in order. -/
def scoreChanges (name : String) (effects : List Effect) : List Number :=
  ((effects.filterMap scoreChange?).filter fun change => change.1 = name).map Prod.snd

/-- What effects do to one tag, in order. -/
def tagChanges (tag : String) (effects : List Effect) : List Bool :=
  ((effects.filterMap tagChange?).filter fun change => change.1 = tag).map Prod.snd

@[simp] theorem scoreChanges_nil (name : String) : scoreChanges name [] = [] := rfl

@[simp] theorem tagChanges_nil (tag : String) : tagChanges tag [] = [] := rfl

@[simp] theorem scoreChanges_cons (name : String) (effect : Effect) (rest : List Effect) :
    scoreChanges name (effect :: rest) =
      match effect.scoreChange? with
      | some change =>
          if change.1 = name then change.2 :: scoreChanges name rest else scoreChanges name rest
      | none => scoreChanges name rest := by
  cases complete : effect.scoreChange? with
  | none => simp [scoreChanges, complete]
  | some change => by_cases named : change.1 = name <;> simp [scoreChanges, complete, named]

@[simp] theorem tagChanges_cons (tag : String) (effect : Effect) (rest : List Effect) :
    tagChanges tag (effect :: rest) =
      match effect.tagChange? with
      | some change =>
          if change.1 = tag then change.2 :: tagChanges tag rest else tagChanges tag rest
      | none => tagChanges tag rest := by
  cases complete : effect.tagChange? with
  | none => simp [tagChanges, complete]
  | some change => by_cases named : change.1 = tag <;> simp [tagChanges, complete, named]

theorem scoreChanges_first_rest (name : String) (effect : Effect) (rest : List Effect) :
    scoreChanges name (effect :: rest) = scoreChanges name [effect] ++ scoreChanges name rest := by
  have parts : effect :: rest = [effect] ++ rest := rfl
  simp only [parts, scoreChanges, List.filterMap_append, List.filter_append, List.map_append]

theorem tagChanges_first_rest (tag : String) (effect : Effect) (rest : List Effect) :
    tagChanges tag (effect :: rest) = tagChanges tag [effect] ++ tagChanges tag rest := by
  have parts : effect :: rest = [effect] ++ rest := rfl
  simp only [parts, tagChanges, List.filterMap_append, List.filter_append, List.map_append]

theorem Leads.fixed {profile final : Profile} {effects : List Effect}
    (leads : Leads profile effects final) :
    final.customerId = profile.customerId ∧ final.staticData = profile.staticData ∧
      final.behavioral = profile.behavioral := by
  induction leads with
  | done => exact ⟨rfl, rfl, rfl⟩
  | step change _ ih => cases change <;> exact ih

theorem Leads.names_prefix {profile final : Profile} {effects : List Effect}
    (leads : Leads profile effects final) :
    profile.scores.names <+: final.scores.names := by
  induction leads with
  | done => exact List.prefix_rfl
  | step change _ ih =>
      refine List.IsPrefix.trans ?_ ih
      cases change with
      | scored =>
          rw [Fields.names_set]
          split
          · exact List.prefix_rfl
          · exact List.prefix_append _ _
      | added | removed | nothing => exact List.prefix_rfl

theorem Leads.names_nodup {profile final : Profile} {effects : List Effect}
    (leads : Leads profile effects final) (distinct : profile.scores.names.Nodup) :
    final.scores.names.Nodup := by
  induction leads with
  | done => exact distinct
  | step change _ ih =>
      refine ih ?_
      cases change with
      | scored => exact Fields.nodup_names_set distinct _ _
      | added | removed | nothing => exact distinct

theorem Leads.get?_unwritten {profile final : Profile} {effects : List Effect}
    (leads : Leads profile effects final) {name : String}
    (unwritten : scoreChanges name effects = []) :
    final.scores.get? name = profile.scores.get? name := by
  induction leads with
  | done => rfl
  | step change _ ih =>
      cases change with
      | scored complete =>
          simp only [scoreChanges_cons, complete] at unwritten
          split at unwritten
          case isTrue => cases unwritten
          case isFalse other => rw [ih unwritten, Fields.get?_set, if_neg other]
      | added _ scoreless | removed _ scoreless | nothing scoreless =>
          simp only [scoreChanges_cons, scoreless] at unwritten
          exact ih unwritten

private theorem nodup_append_new {labels : List String} (distinct : labels.Nodup) (label : String) :
    (if label ∈ labels then labels else labels ++ [label]).Nodup := by
  split
  case isTrue => exact distinct
  case isFalse fresh => simpa using List.Nodup.concat fresh distinct

theorem Changes.tags_nodup {profile final : Profile} {effect : Effect}
    (change : Changes profile effect final) (distinct : profile.tags.Nodup) :
    final.tags.Nodup := by
  cases change with
  | added => exact nodup_append_new distinct _
  | removed => exact distinct.erase _
  | scored | nothing => exact distinct

theorem Leads.tags_nodup {profile final : Profile} {effects : List Effect}
    (leads : Leads profile effects final) (distinct : profile.tags.Nodup) : final.tags.Nodup := by
  induction leads with
  | done => exact distinct
  | step change _ ih => exact ih (change.tags_nodup distinct)

theorem Leads.wellFormed {profile final : Profile} {effects : List Effect}
    (leads : Leads profile effects final) (wellFormed : profile.WellFormed) :
    final.WellFormed :=
  ⟨leads.tags_nodup wellFormed.tags, leads.names_nodup wellFormed.scoreNames⟩

theorem Leads.distinct {profile final : Profile} {effects : List Effect}
    (leads : Leads profile effects final) (distinct : profile.Distinct) : final.Distinct where
  scoreNames := leads.names_nodup distinct.scoreNames
  staticData := leads.fixed.2.1 ▸ distinct.staticData
  behavioral := leads.fixed.2.2 ▸ distinct.behavioral

theorem Changes.hasTag {profile final : Profile} {effect : Effect}
    (change : Changes profile effect final) (distinct : profile.tags.Nodup) (tag : String) :
    final.hasTag tag = (tagChanges tag [effect]).getLast?.getD (profile.hasTag tag) := by
  cases change with
  | @added other complete =>
      by_cases same : other = tag
      · by_cases present : tag ∈ profile.tags <;> simp [complete, same, Profile.hasTag, present]
      · by_cases present : other ∈ profile.tags <;>
          simp [complete, same, Profile.hasTag, present, Ne.symm same]
  | @removed other complete =>
      -- Only the first place is erased, which is all there is since no tag is there twice.
      by_cases same : other = tag
      · simp [complete, same, Profile.hasTag, distinct.mem_erase_iff]
      · simp [complete, same, Profile.hasTag, distinct.mem_erase_iff, Ne.symm same]
  | scored _ tagless | nothing _ tagless => simp [tagless, Profile.hasTag]

/-- A profile has a tag as the last effect about it says, or as before if none is. -/
theorem Leads.hasTag {profile final : Profile} {effects : List Effect}
    (leads : Leads profile effects final) (distinct : profile.tags.Nodup) (tag : String) :
    final.hasTag tag = (tagChanges tag effects).getLast?.getD (profile.hasTag tag) := by
  induction leads with
  | done => rfl
  | @step _ effect _ rest _ change _ ih =>
      rw [ih (change.tags_nodup distinct), change.hasTag distinct,
        tagChanges_first_rest tag effect rest, List.getLast?_append, Option.getD_or]

end Effect

namespace Agenda

theorem active_of_mem {rules : List Rule} {events : List Event} {item : Event × Rule}
    (member : item ∈ ofEvents (Rule.sortActive rules) events) :
    item.2 ∈ rules ∧ item.2.isActive = true := by
  obtain ⟨event, _, turn⟩ := List.mem_flatMap.mp member
  obtain ⟨rule, chosen, rfl⟩ := List.mem_map.mp turn
  have sorted : rule ∈ Rule.sortActive rules := (List.mem_filter.mp chosen).1
  exact List.mem_filter.mp ((List.mergeSort_perm _ _).mem_iff.mp sorted)

/-- The rules that fire in a run are named by its trace, in order, and their effects are all
    that happens to the profile. -/
theorem Runs.fired_rules {profile final : Profile} {agenda : Agenda} {trace : List TraceEntry}
    (runs : Runs profile agenda final trace) :
    ∃ fired : List Rule, fired.Sublist (agenda.map Prod.snd) ∧
      trace.map TraceEntry.ruleId = fired.map Rule.id ∧
      Effect.Leads profile (fired.flatMap Rule.effects) final := by
  induction runs with
  | done profile => exact ⟨[], .slnil, rfl, .done profile⟩
  | idle _ _ ih =>
      obtain ⟨fired, among, named, leads⟩ := ih
      exact ⟨fired, among.cons _, named, leads⟩
  | @fired _ _ rule _ _ _ _ taken _ ih =>
      obtain ⟨fired, among, named, leads⟩ := ih
      have first := Effect.applyAll_leads (Rule.turn_eq_some_iff.mp taken).2
      refine ⟨rule :: fired, among.cons_cons _, ?_, first.append leads⟩
      simp [Rule.entry, named]

end Agenda

theorem evaluate_fired_rules {rules : List Rule} {profile : Profile} {events : List Event}
    {now : Timestamp} {result : Evaluation}
    (returned : evaluate rules profile events now = .ok result) :
    ∃ (fired : List Rule) (final : Profile),
      (∀ rule ∈ fired, rule ∈ rules ∧ rule.isActive = true) ∧
      result.trace.map TraceEntry.ruleId = fired.map Rule.id ∧
      Effect.Leads profile (fired.flatMap Rule.effects) final ∧
      result.profile = { final with lastUpdated := some now } := by
  obtain ⟨final, runs, stamped⟩ := evaluate_eq_ok_iff.mp returned
  obtain ⟨fired, among, named, leads⟩ := runs.fired_rules
  refine ⟨fired, final, fun rule member => ?_, named, leads, stamped⟩
  obtain ⟨item, turn, rfl⟩ := List.mem_map.mp (among.subset member)
  exact Agenda.active_of_mem turn

end NextOffer
