import NextOffer.Proofs.Evaluation.Overflow
import NextOffer.Proofs.Evaluation.Points
import NextOffer.Proofs.Path

/-! # The order of events

Rules that look at no score and no tag fire on an event or not, whatever happened before it.
A batch then fires the same rules in any order of its events, and integer changes add up to
the same scores. Of the tags, only those can tell the order that rules both add and remove.

What the order does decide is how large a score becomes on the way, and a change of a score that
is too long for its description fails. A batch with room for all changes cannot come to this.
-/

namespace NextOffer

/-- The parts of a profile that no rule changes are the same. -/
structure Profile.SameFacts (first second : Profile) : Prop where
  staticData : first.staticData = second.staticData
  behavioral : first.behavioral = second.behavioral

theorem Effect.Leads.sameFacts {profile final : Profile} {effects : List Effect}
    (leads : Leads profile effects final) : final.SameFacts profile :=
  ⟨leads.fixed.2.1, leads.fixed.2.2⟩

theorem Profile.SameFacts.rfl {profile : Profile} : profile.SameFacts profile :=
  ⟨Eq.refl _, Eq.refl _⟩

theorem Profile.SameFacts.trans {first second third : Profile} (same : first.SameFacts second)
    (same' : second.SameFacts third) : first.SameFacts third :=
  ⟨same.staticData.trans same'.staticData, same.behavioral.trans same'.behavioral⟩

namespace Condition

/-- The source is no part of the profile, or a part that no rule changes. -/
def Blind (condition : Condition) : Prop :=
  (Path.names condition.source).head? ≠ some "profile" ∨
    ["profile", "static"] <+: Path.names condition.source ∨
    ["profile", "behavioral"] <+: Path.names condition.source

variable {first second : Profile} {condition : Condition}

theorem resolve?_of_blind (same : first.SameFacts second) (blind : condition.Blind)
    (event : Event) :
    Path.resolve? (evaluationContext first event) condition.source =
      Path.resolve? (evaluationContext second event) condition.source := by
  rcases blind with outside | ⟨rest, static⟩ | ⟨rest, behavioral⟩
  · unfold Path.resolve?
    cases names : Path.names condition.source with
    | nil => exact absurd names (Path.names_ne_nil _)
    | cons name rest =>
        have other : "profile" ≠ name := by
          rintro rfl
          simp [names] at outside
        have step : (evaluationContext first event).step? name =
            (evaluationContext second event).step? name := by
          simp [evaluationContext, Json.Value.step?, Json.Value.get?, Fields.get?, other]
        simp only [Json.Value.walk?, step]
  · simp only [Path.resolve?, ← static, List.cons_append, Json.Value.walk?]
    simp [evaluationContext, Json.Value.step?, Json.Value.get?, Fields.get?, same.staticData]
  · simp only [Path.resolve?, ← behavioral, List.cons_append, Json.Value.walk?]
    simp [evaluationContext, Json.Value.step?, Json.Value.get?, Fields.get?, same.behavioral]

/-- Blind conditions have the same answers whatever rules did to the profile. -/
theorem allHold_of_blind (same : first.SameFacts second) {conditions : List Condition}
    (blind : ∀ condition ∈ conditions, condition.Blind) (event : Event) :
    allHold (evaluationContext first event) conditions =
      allHold (evaluationContext second event) conditions := by
  induction conditions with
  | nil => rfl
  | cons condition rest ih =>
      obtain ⟨blind, blindRest⟩ := List.forall_mem_cons.mp blind
      have held : condition.holds (evaluationContext first event) =
          condition.holds (evaluationContext second event) := by
        rw [holds, holds, resolve?_of_blind same blind]
      simp only [allHold, held, ih blindRest]

end Condition

/-- No score outgrows the texts of numbers, in whatever order the effects change it. -/
def Profile.HasRoom (profile : Profile) (effects : List Effect) : Prop :=
  ∀ name, (profile.points name).natAbs + Effect.turnover name effects < Nat.pow 10 digitLimit

namespace Profile.HasRoom

variable {profile current : Profile} {effects front back : List Effect}

theorem ofFront (room : profile.HasRoom (front ++ back)) : profile.HasRoom front := by
  intro name
  have whole := room name
  rw [Effect.turnover_append] at whole
  omega

theorem onward (room : profile.HasRoom (front ++ back))
    (leads : Effect.Leads profile front current) (whole : profile.HasWholeScores)
    (wholeDeltas : ∀ effect ∈ front, effect.HasWholeDelta) : current.HasRoom back := by
  intro name
  have bound := room name
  have gained := Effect.natAbs_gain_le name front
  rw [Effect.turnover_append] at bound
  rw [leads.points whole wholeDeltas]
  omega

end Profile.HasRoom

namespace Effect

variable {profile : Profile}

/-- Changes of points fail only where they cannot be written. -/
theorem fault_of_points {effect : Effect} {fault : ArithmeticFault}
    (whole : profile.HasWholeScores) (wholeDelta : effect.HasWholeDelta)
    (fails : effect.Fails profile fault) : fault = .tooManyDigits := by
  cases fails with
  | @sum score delta named clash =>
      obtain ⟨n, rfl⟩ := wholeDelta score delta (by simp [scoreChange?, named])
      rw [whole.score_eq] at clash
      exact clash.elim
  | description => rfl

theorem apply_returns {effect : Effect} (whole : profile.HasWholeScores)
    (wholeDelta : effect.HasWholeDelta) (room : profile.HasRoom [effect]) :
    ∃ applied, effect.apply profile = .ok applied := by
  cases done : effect.apply profile with
  | ok applied => exact ⟨applied, rfl⟩
  | error fault =>
      have fails := apply_eq_error_iff.mp done
      obtain rfl := fault_of_points whole wholeDelta fails
      cases fails with
      | @description score delta value named sum unwritable =>
          obtain ⟨n, rfl⟩ := wholeDelta score delta (by simp [scoreChange?, named])
          rw [whole.score_eq] at sum unwritable
          obtain rfl := Except.ok.inj sum
          have inside := room score
          simp only [turnover, scoreChanges_cons, scoreChange?, named, if_false, if_true,
            scoreChanges_nil, List.map_cons, List.map_nil, List.sum_cons, List.sum_nil,
            Number.points] at inside
          simp only [← Bool.not_eq_true, Number.isWritable_int_iff] at unwritable
          omega

theorem applyAll_returns {effects : List Effect} (whole : profile.HasWholeScores)
    (wholeDeltas : ∀ effect ∈ effects, effect.HasWholeDelta) (room : profile.HasRoom effects) :
    ∃ final texts, applyAll profile effects = .ok (final, texts) := by
  cases done : applyAll profile effects with
  | ok reached => exact ⟨reached.1, reached.2, rfl⟩
  | error fault =>
      obtain ⟨before, effect, after, current, texts, rfl, reached, failed⟩ :=
        applyAll_eq_error_iff.mp done
      have wholeFront : ∀ effect ∈ before, effect.HasWholeDelta :=
        fun effect member => wholeDeltas effect (List.mem_append_left _ member)
      have leads := applyAll_leads reached
      have onward : current.HasRoom ([effect] ++ after) := room.onward leads whole wholeFront
      obtain ⟨applied, returned⟩ := apply_returns (leads.whole whole wholeFront)
        (wholeDeltas effect (by simp)) onward.ofFront
      rw [returned] at failed
      cases failed

variable {effects others : List Effect}

theorem scoreChanges_perm (same : effects.Perm others) (name : String) :
    (scoreChanges name effects).Perm (scoreChanges name others) :=
  ((same.filterMap _).filter _).map _

theorem tagChanges_perm (same : effects.Perm others) (tag : String) :
    (tagChanges tag effects).Perm (tagChanges tag others) :=
  ((same.filterMap _).filter _).map _

theorem gain_perm (same : effects.Perm others) (name : String) :
    gain name effects = gain name others :=
  ((scoreChanges_perm same name).map _).sum_eq

theorem turnover_perm (same : effects.Perm others) (name : String) :
    turnover name effects = turnover name others :=
  ((scoreChanges_perm same name).map _).sum_eq

theorem hasRoom_perm (same : effects.Perm others) (room : profile.HasRoom effects) :
    profile.HasRoom others := fun name => turnover_perm same name ▸ room name

theorem mem_tagChanges_iff {tag : String} {added : Bool} :
    added ∈ tagChanges tag effects ↔ ∃ effect ∈ effects, effect.tagChange? = some (tag, added) := by
  simp [tagChanges]

end Effect

/-- Some active rule has an effect that adds the tag, or one that removes it. -/
def Rule.Tells (rules : List Rule) (tag : String) (added : Bool) : Prop :=
  ∃ rule ∈ rules, rule.isActive ∧ ∃ effect ∈ rule.effects, effect.tagChange? = some (tag, added)

namespace Agenda

/-- Turns that do not depend on what rules change, and whose effects count points. -/
def Blind (agenda : Agenda) : Prop :=
  ∀ item ∈ agenda, (∀ condition ∈ item.2.conditions, condition.Blind) ∧
    ∀ effect ∈ item.2.effects, effect.HasWholeDelta

/-- The answer of a turn's conditions on a profile. -/
def answer (profile : Profile) (item : Event × Rule) : Except ArithmeticFault Bool :=
  Condition.allHold (evaluationContext profile item.1) item.2.conditions

/-- The rules of the turns that fire on a profile, if it stays as it is. -/
def firing (profile : Profile) (agenda : Agenda) : List Rule :=
  (agenda.filter fun item => answer profile item matches .ok true).map Prod.snd

theorem firing_cons {profile : Profile} {item : Event × Rule} {rest : Agenda} {found : Bool}
    (answered : answer profile item = .ok found) :
    firing profile (item :: rest) =
      if found then item.2 :: firing profile rest else firing profile rest := by
  cases found <;> simp [firing, answered]

theorem answer_of_blind {first current : Profile} {event : Event} {rule : Rule}
    (same : current.SameFacts first) (blind : ∀ condition ∈ rule.conditions, condition.Blind) :
    answer first (event, rule) =
      Condition.allHold (evaluationContext current event) rule.conditions :=
  (Condition.allHold_of_blind same blind event).symm

theorem Runs.firing {first current final : Profile} {agenda : Agenda} {trace : List TraceEntry}
    (runs : Runs current agenda final trace) (same : current.SameFacts first)
    (blind : agenda.Blind) :
    (∀ item ∈ agenda, ∃ found, answer first item = .ok found) ∧
      trace.map TraceEntry.ruleId = (Agenda.firing first agenda).map Rule.id ∧
      Effect.Leads current ((Agenda.firing first agenda).flatMap Rule.effects) final := by
  induction runs with
  | done profile => exact ⟨by simp, rfl, .done profile⟩
  | @idle profile event rule rest final trace taken _ ih =>
      obtain ⟨⟨blindTurn, -⟩, blindRest⟩ := List.forall_mem_cons.mp blind
      have held : answer first (event, rule) = .ok false :=
        (answer_of_blind same blindTurn).trans (Rule.turn_eq_none_iff.mp taken)
      obtain ⟨answers, named, onward⟩ := ih same blindRest
      rw [firing_cons held]
      exact ⟨List.forall_mem_cons.mpr ⟨⟨false, held⟩, answers⟩, named, onward⟩
  | @fired profile event rule done rest final trace taken _ ih =>
      obtain ⟨⟨blindTurn, -⟩, blindRest⟩ := List.forall_mem_cons.mp blind
      obtain ⟨met, applied⟩ := Rule.turn_eq_some_iff.mp taken
      have held : answer first (event, rule) = .ok true :=
        (answer_of_blind same blindTurn).trans met
      have leads := Effect.applyAll_leads applied
      obtain ⟨answers, named, onward⟩ := ih (leads.sameFacts.trans same) blindRest
      rw [firing_cons held]
      refine ⟨List.forall_mem_cons.mpr ⟨⟨true, held⟩, answers⟩, ?_, leads.append onward⟩
      simp [Rule.entry, named]

/-- A run along blind turns ends when all their conditions have answers on the first profile and
    there is room for all changes. -/
theorem exists_runs {first current : Profile} {agenda : Agenda} (same : current.SameFacts first)
    (whole : current.HasWholeScores) (blind : agenda.Blind)
    (answers : ∀ item ∈ agenda, ∃ found, answer first item = .ok found)
    (room : current.HasRoom ((firing first agenda).flatMap Rule.effects)) :
    ∃ final trace, Runs current agenda final trace := by
  induction agenda generalizing current with
  | nil => exact ⟨current, [], .done current⟩
  | cons item rest ih =>
      obtain ⟨event, rule⟩ := item
      obtain ⟨⟨blindTurn, wholeDeltas⟩, blindRest⟩ := List.forall_mem_cons.mp blind
      obtain ⟨⟨found, answered⟩, answersRest⟩ := List.forall_mem_cons.mp answers
      rw [firing_cons answered] at room
      rw [answer_of_blind same blindTurn] at answered
      cases found with
      | false =>
          obtain ⟨final, trace, onward⟩ := ih same whole blindRest answersRest room
          exact ⟨final, trace, .idle (Rule.turn_eq_none_iff.mpr answered) onward⟩
      | true =>
          rw [if_pos rfl, List.flatMap_cons] at room
          obtain ⟨middle, texts, done⟩ := Effect.applyAll_returns whole wholeDeltas room.ofFront
          have leads := Effect.applyAll_leads done
          have taken : rule.turn event current = .ok (some ⟨middle, texts⟩) :=
            Rule.turn_eq_some_iff.mpr ⟨answered, done⟩
          obtain ⟨final, trace, onward⟩ :=
            ih (leads.sameFacts.trans same) (leads.whole whole wholeDeltas) blindRest answersRest
              (room.onward leads whole wholeDeltas)
          exact ⟨final, _, .fired taken onward⟩

theorem mem_firing {profile : Profile} {agenda : Agenda} {event : Event} {rule : Rule}
    (member : (event, rule) ∈ agenda) (met : answer profile (event, rule) = .ok true) :
    rule ∈ firing profile agenda :=
  List.mem_map.mpr ⟨(event, rule), List.mem_filter.mpr ⟨member, by simp [met]⟩, rfl⟩

theorem firing_perm {first second : Agenda} (same : first.Perm second) (profile : Profile) :
    (firing profile first).Perm (firing profile second) :=
  (same.filter _).map _

theorem ofEvents_perm {events others : List Event} (same : events.Perm others)
    (sorted : List Rule) : (ofEvents sorted events).Perm (ofEvents sorted others) :=
  same.flatMap_right _

theorem blind_ofEvents {rules : List Rule} (events : List Event)
    (blind : ∀ rule ∈ rules, rule.isActive → ∀ condition ∈ rule.conditions, condition.Blind)
    (wholeDeltas : ∀ rule ∈ rules, rule.isActive →
      ∀ effect ∈ rule.effects, effect.HasWholeDelta) :
    Blind (ofEvents (Rule.sortActive rules) events) := by
  intro item member
  obtain ⟨listed, active⟩ := active_of_mem member
  exact ⟨blind item.2 listed active, wholeDeltas item.2 listed active⟩

end Agenda

/-- What two evaluations of one batch in different orders have in common. -/
structure Evaluation.Alike (rules : List Rule) (first second : Evaluation) : Prop where
  /-- Every rule fired as often. -/
  fired : (first.trace.map TraceEntry.ruleId).Perm (second.trace.map TraceEntry.ruleId)
  scores : ∀ name, first.profile.scores.get? name = second.profile.scores.get? name
  /-- A tag is in both or in neither, unless active rules both add it and remove it. -/
  tags : ∀ tag, ¬ (Rule.Tells rules tag true ∧ Rule.Tells rules tag false) →
    (tag ∈ first.profile.tags ↔ tag ∈ second.profile.tags)

/-- Outcomes that are alike, or faults on both sides. -/
inductive Evaluation.Agree (rules : List Rule) :
    Except ArithmeticFault Evaluation → Except ArithmeticFault Evaluation → Prop where
  | fails (fault fault') : Agree rules (.error fault) (.error fault')
  | returns {first second} (alike : Alike rules first second) :
      Agree rules (.ok first) (.ok second)

/-- The last word about a tag is the same in any order, unless effects contradict one another. -/
theorem Effect.tagChanges_eq_of_perm {effects others : List Effect} {tag : String} {added : Bool}
    (same : effects.Perm others)
    (agreed : ∀ effect ∈ effects, effect.tagChange? ≠ some (tag, added)) :
    tagChanges tag effects = tagChanges tag others := by
  have constant : ∀ told ∈ tagChanges tag effects, told = !added := by
    intro told member
    obtain ⟨effect, inside, complete⟩ := mem_tagChanges_iff.mp member
    have different : told ≠ added := fun equal => agreed effect inside (equal ▸ complete)
    cases told <;> cases added <;> simp_all
  have perm := tagChanges_perm same tag
  rw [List.eq_replicate_of_mem constant] at perm ⊢
  exact (List.perm_replicate.mp perm.symm).symm

theorem Effect.Leads.get?_eq_of_perm {profile first second : Profile}
    {effects others : List Effect} (leads : Leads profile effects first)
    (leads' : Leads profile others second) (same : effects.Perm others)
    (whole : profile.HasWholeScores) (wholeDeltas : ∀ effect ∈ effects, effect.HasWholeDelta)
    (name : String) : first.scores.get? name = second.scores.get? name := by
  have wholeDeltas' : ∀ effect ∈ others, effect.HasWholeDelta :=
    fun effect member => wholeDeltas effect (same.mem_iff.mpr member)
  have written : scoreChanges name effects = [] ↔ scoreChanges name others = [] := by
    simp only [← List.length_eq_zero_iff, (scoreChanges_perm same name).length_eq]
  rw [leads.get?_scores whole wholeDeltas, leads'.get?_scores whole wholeDeltas',
    gain_perm same name]
  simp only [written]

theorem Effect.Leads.mem_tags_of_perm {profile first second : Profile}
    {effects others : List Effect} (leads : Leads profile effects first)
    (leads' : Leads profile others second) (same : effects.Perm others)
    (distinct : profile.tags.Nodup) {tag : String} {added : Bool}
    (agreed : ∀ effect ∈ effects, effect.tagChange? ≠ some (tag, added)) :
    tag ∈ first.tags ↔ tag ∈ second.tags := by
  have present := leads.hasTag distinct tag
  have present' := leads'.hasTag distinct tag
  rw [tagChanges_eq_of_perm same agreed, ← present', Profile.hasTag, Profile.hasTag] at present
  simpa using present

namespace Agenda

theorem mem_of_firing {profile : Profile} {agenda : Agenda} {effect : Effect}
    (member : effect ∈ (firing profile agenda).flatMap Rule.effects) :
    ∃ item ∈ agenda, effect ∈ item.2.effects := by
  obtain ⟨rule, fired, inside⟩ := List.mem_flatMap.mp member
  obtain ⟨item, turn, rfl⟩ := List.mem_map.mp fired
  exact ⟨item, (List.mem_filter.mp turn).1, inside⟩

theorem not_told_of_firing {rules : List Rule} {events : List Event} {profile : Profile}
    {tag : String} {added : Bool} (untold : ¬ Rule.Tells rules tag added) :
    ∀ effect ∈ (firing profile (ofEvents (Rule.sortActive rules) events)).flatMap Rule.effects,
      effect.tagChange? ≠ some (tag, added) := by
  intro effect member complete
  obtain ⟨item, turn, inside⟩ := mem_of_firing member
  obtain ⟨listed, active⟩ := active_of_mem turn
  exact untold ⟨item.2, listed, active, effect, inside, complete⟩

theorem wholeDeltas_of_firing {profile : Profile} {agenda : Agenda} (blind : agenda.Blind) :
    ∀ effect ∈ (firing profile agenda).flatMap Rule.effects, effect.HasWholeDelta := by
  intro effect member
  obtain ⟨item, turn, inside⟩ := mem_of_firing member
  exact (blind item turn).2 effect inside

end Agenda

theorem Evaluation.alike_of_runs {rules : List Rule} {profile final final' : Profile}
    {events others : List Event} {trace trace' : List TraceEntry}
    (distinctTags : profile.tags.Nodup) (wholeScores : profile.HasWholeScores)
    (same : events.Perm others)
    (blind : (Agenda.ofEvents (Rule.sortActive rules) events).Blind)
    (blind' : (Agenda.ofEvents (Rule.sortActive rules) others).Blind)
    (runs : Agenda.Runs profile (Agenda.ofEvents (Rule.sortActive rules) events) final trace)
    (runs' : Agenda.Runs profile (Agenda.ofEvents (Rule.sortActive rules) others) final' trace') :
    Alike rules ⟨final, trace⟩ ⟨final', trace'⟩ := by
  obtain ⟨-, named, leads⟩ := runs.firing .rfl blind
  obtain ⟨-, named', leads'⟩ := runs'.firing .rfl blind'
  have fired := Agenda.firing_perm (Agenda.ofEvents_perm same (Rule.sortActive rules)) profile
  have effects := fired.flatMap_right Rule.effects
  refine ⟨?_, ?_, fun tag untold => ?_⟩
  · rw [named, named']
    exact fired.map _
  · exact leads.get?_eq_of_perm leads' effects wholeScores (Agenda.wholeDeltas_of_firing blind)
  · have tags : ∀ added, ¬ Rule.Tells rules tag added → (tag ∈ final.tags ↔ tag ∈ final'.tags) :=
      fun added untold => leads.mem_tags_of_perm leads' effects distinctTags
        (Agenda.not_told_of_firing untold)
    exact (not_and_or.mp untold).elim (tags true) (tags false)

theorem Evaluation.Alike.stamped {rules : List Rule} {first second : Evaluation}
    (alike : Alike rules first second) (time : Option Timestamp) :
    Alike rules ⟨{ first.profile with lastUpdated := time }, first.trace⟩
      ⟨{ second.profile with lastUpdated := time }, second.trace⟩ :=
  ⟨alike.fired, alike.scores, alike.tags⟩

/-- The effects that a batch applies when its conditions are answered on the first profile. -/
def Agenda.applied (rules : List Rule) (profile : Profile) (events : List Event) : List Effect :=
  (firing profile (ofEvents (Rule.sortActive rules) events)).flatMap Rule.effects

/-- The conditions of some turn have no answer on the first profile. -/
def Agenda.Unanswered (rules : List Rule) (profile : Profile) (events : List Event) : Prop :=
  ∃ item ∈ ofEvents (Rule.sortActive rules) events, ∃ fault, answer profile item = .error fault

/-- What the evaluations of one batch in two orders have to do with one another. -/
structure Evaluation.Commutes (rules : List Rule) (profile : Profile) (events others : List Event)
    (now : Timestamp) : Prop where
  /-- When both return, they are alike. -/
  alike : ∀ first second, evaluate rules profile events now = .ok first →
    evaluate rules profile others now = .ok second → Alike rules first second
  /-- When there is room for all changes, either both return or both fail; and both fail when
      conditions have no answer. -/
  agree : profile.HasRoom (Agenda.applied rules profile events) ∨
      Agenda.Unanswered rules profile events →
    Agree rules (evaluate rules profile events now) (evaluate rules profile others now)
  /-- When only the first fails, one of the changes leads to a number that is too long to be
      written. -/
  apart : ∀ fault second, evaluate rules profile events now = .error fault →
    evaluate rules profile others now = .ok second →
      fault = .tooManyDigits ∧ ∃ effect ∈ Agenda.applied rules profile events,
        ∃ current, effect.Fails current .tooManyDigits

section Order

variable {rules : List Rule} {profile : Profile} {events others : List Event} {now : Timestamp}

theorem Agenda.applied_perm (same : events.Perm others) :
    (applied rules profile events).Perm (applied rules profile others) :=
  (firing_perm (ofEvents_perm same (Rule.sortActive rules)) profile).flatMap_right _

theorem Agenda.Unanswered.perm (unanswered : Unanswered rules profile events)
    (same : events.Perm others) : Unanswered rules profile others := by
  obtain ⟨item, member, failed⟩ := unanswered
  exact ⟨item, (ofEvents_perm same (Rule.sortActive rules)).mem_iff.mp member, failed⟩

theorem Agenda.Unanswered.fails (now : Timestamp)
    (blind : (Agenda.ofEvents (Rule.sortActive rules) others).Blind)
    (unanswered : Agenda.Unanswered rules profile events) (same : events.Perm others) :
    ∃ fault, evaluate rules profile others now = .error fault := by
  cases outcome : evaluate rules profile others now with
  | error fault => exact ⟨fault, rfl⟩
  | ok result =>
      obtain ⟨final, runs, -⟩ := evaluate_eq_ok_iff.mp outcome
      obtain ⟨item, there, fault, failed⟩ := unanswered.perm same
      obtain ⟨found, answered⟩ := (runs.firing .rfl blind).1 item there
      rw [failed] at answered
      cases answered

theorem Agenda.returns_of_room (now : Timestamp)
    (blind : (Agenda.ofEvents (Rule.sortActive rules) events).Blind)
    (whole : profile.HasWholeScores) (answers : ¬ Agenda.Unanswered rules profile events)
    (room : profile.HasRoom (Agenda.applied rules profile events)) :
    ∃ result, evaluate rules profile events now = .ok result := by
  have answered : ∀ item ∈ Agenda.ofEvents (Rule.sortActive rules) events,
      ∃ found, Agenda.answer profile item = .ok found := by
    intro item member
    cases found : Agenda.answer profile item with
    | ok answer => exact ⟨answer, rfl⟩
    | error fault => exact absurd ⟨item, member, fault, found⟩ answers
  obtain ⟨final, trace, runs⟩ := Agenda.exists_runs .rfl whole blind answered room
  exact ⟨⟨{ final with lastUpdated := some now }, trace⟩,
    evaluate_eq_ok_iff.mpr ⟨final, runs, rfl⟩⟩

/-- Where all conditions have answers, only a change fails. -/
theorem Agenda.exists_fails_of_error
    (blind : (Agenda.ofEvents (Rule.sortActive rules) events).Blind)
    (whole : profile.HasWholeScores) (answers : ¬ Agenda.Unanswered rules profile events)
    {fault : ArithmeticFault} (failed : evaluate rules profile events now = .error fault) :
    fault = .tooManyDigits ∧ ∃ effect ∈ Agenda.applied rules profile events,
      ∃ current, effect.Fails current .tooManyDigits := by
  obtain ⟨before, event, rule, after, current, trace, agenda, runs, failed⟩ :=
    Agenda.run_eq_error_iff.mp (evaluate_eq_error_iff.mp failed)
  have here : (event, rule) ∈ Agenda.ofEvents (Rule.sortActive rules) events := by
    rw [agenda]
    exact List.mem_append_right _ List.mem_cons_self
  obtain ⟨blindRule, wholeDeltas⟩ := blind _ here
  have blindBefore : Agenda.Blind before := fun item member =>
    blind item (agenda ▸ List.mem_append_left _ member)
  have leads := (runs.firing .rfl blindBefore).2.2
  have wholeCurrent := leads.whole whole (Agenda.wholeDeltas_of_firing blindBefore)
  have asked := @Agenda.answer_of_blind _ _ event _ leads.sameFacts blindRule
  rcases Rule.turn_eq_error_iff.mp failed with unasked | ⟨met, failed⟩
  · exact absurd ⟨_, here, fault, asked.trans unasked⟩ answers
  · obtain ⟨front, effect, back, reached, texts, split, applied, failed⟩ :=
      Effect.applyAll_eq_error_iff.mp failed
    have wholeFront : ∀ effect ∈ front, effect.HasWholeDelta := fun effect member =>
      wholeDeltas effect (by rw [split]; exact List.mem_append_left _ member)
    have inside : effect ∈ rule.effects := by simp [split]
    have fails := Effect.apply_eq_error_iff.mp failed
    obtain rfl := Effect.fault_of_points
      ((Effect.applyAll_leads applied).whole wholeCurrent wholeFront)
      (wholeDeltas effect inside) fails
    have fired : rule ∈ Agenda.firing profile (Agenda.ofEvents (Rule.sortActive rules) events) :=
      Agenda.mem_firing here (asked.trans met)
    exact ⟨rfl, effect, List.mem_flatMap.mpr ⟨rule, fired, inside⟩, reached, fails⟩

/-- The order of events does not matter to rules that look at no score and no tag, where all
    scores and changes are integers that can be written on the way. -/
theorem evaluate_perm (rules : List Rule) (profile : Profile) (events others : List Event)
    (now : Timestamp) (distinctTags : profile.tags.Nodup) (wholeScores : profile.HasWholeScores)
    (blind : ∀ rule ∈ rules, rule.isActive → ∀ condition ∈ rule.conditions, condition.Blind)
    (wholeDeltas : ∀ rule ∈ rules, rule.isActive →
      ∀ effect ∈ rule.effects, effect.HasWholeDelta)
    (same : events.Perm others) :
    Evaluation.Commutes rules profile events others now := by
  have blindTurns := Agenda.blind_ofEvents events blind wholeDeltas
  have blindTurns' := Agenda.blind_ofEvents others blind wholeDeltas
  have alike : ∀ first second, evaluate rules profile events now = .ok first →
      evaluate rules profile others now = .ok second → Evaluation.Alike rules first second := by
    rintro ⟨_, trace⟩ ⟨_, trace'⟩ done redone
    obtain ⟨final, runs, rfl⟩ := evaluate_eq_ok_iff.mp done
    obtain ⟨final', runs', rfl⟩ := evaluate_eq_ok_iff.mp redone
    exact (Evaluation.alike_of_runs distinctTags wholeScores same blindTurns blindTurns'
      runs runs').stamped _
  have disagree : Agenda.Unanswered rules profile events → Evaluation.Agree rules
      (evaluate rules profile events now) (evaluate rules profile others now) := by
    intro unanswered
    obtain ⟨fault, failed⟩ := unanswered.fails now blindTurns (.refl _)
    obtain ⟨fault', failed'⟩ := unanswered.fails now blindTurns' same
    rw [failed, failed']
    exact .fails fault fault'
  refine ⟨alike, ?_, ?_⟩
  · rintro (room | unanswered)
    · by_cases unanswered : Agenda.Unanswered rules profile events
      · exact disagree unanswered
      · obtain ⟨first, done⟩ := Agenda.returns_of_room now blindTurns wholeScores unanswered room
        obtain ⟨second, redone⟩ := Agenda.returns_of_room now blindTurns' wholeScores
          (fun failing => unanswered (failing.perm same.symm))
          (Effect.hasRoom_perm (Agenda.applied_perm same) room)
        rw [done, redone]
        exact .returns (alike first second done redone)
    · exact disagree unanswered
  · intro fault second failed returned
    refine Agenda.exists_fails_of_error blindTurns wholeScores (fun unanswered => ?_) failed
    obtain ⟨fault', failed'⟩ := unanswered.fails now blindTurns' same
    rw [failed'] at returned
    cases returned

end Order

namespace Rule

def bonus : Rule :=
  { id := "bonus", name := "Bonus", status := .active, event := .salaryCredit
    conditions := [⟨"event.amount", "=", some (.scalar (.number 100))⟩]
    effects := [.scoreDelta (some "trust") (some 5), .addTag (some "paid")] }

def domestic : Rule :=
  { id := "domestic", name := "Domestic", status := .active, event := .login
    conditions := [⟨"profile.static.country", "=", some (.scalar (.text "IN"))⟩]
    effects := [.scoreDelta (some "trust") (some 1), .addTag (some "domestic")] }

def salary : Event := ⟨.salaryCredit, [("amount", .int 100)]⟩

def signIn : Event := ⟨.login, []⟩

def resident : Profile := { customerId := "C1", staticData := [("country", .string "IN")] }

/-- One batch in both of its orders. -/
theorem evaluate_perm_resident :
    resident.tags.Nodup ∧ resident.HasWholeScores ∧
    (∀ rule ∈ [bonus, domestic], rule.isActive →
      ∀ condition ∈ rule.conditions, condition.Blind) ∧
    (∀ rule ∈ [bonus, domestic], rule.isActive →
      ∀ effect ∈ rule.effects, effect.HasWholeDelta) ∧
    [salary, signIn].Perm [signIn, salary] ∧
    resident.HasRoom (Agenda.applied [bonus, domestic] resident [salary, signIn]) ∧
    ¬ Agenda.Unanswered [bonus, domestic] resident [salary, signIn] ∧
    Evaluation.Agree [bonus, domestic]
      (evaluate [bonus, domestic] resident [salary, signIn]
        (.midnight ⟨2026, 2, 5, by decide⟩ none))
      (evaluate [bonus, domestic] resident [signIn, salary]
        (.midnight ⟨2026, 2, 5, by decide⟩ none)) := by
  have distinctTags : resident.tags.Nodup := by decide
  have wholeScores : resident.HasWholeScores := by
    simp [Profile.HasWholeScores, resident, Fields.get?]
  have blind : ∀ rule ∈ [bonus, domestic], rule.isActive →
      ∀ condition ∈ rule.conditions, condition.Blind := by
    have outside : Path.names "event.amount" = ["event", "amount"] := rfl
    have static : Path.names "profile.static.country" = ["profile", "static", "country"] := rfl
    simp [bonus, domestic, Condition.Blind, outside, static]
  have wholeDeltas : ∀ rule ∈ [bonus, domestic], rule.isActive →
      ∀ effect ∈ rule.effects, effect.HasWholeDelta := by
    have one : Number.IsWhole 1 := ⟨1, rfl⟩
    have five : Number.IsWhole 5 := ⟨5, rfl⟩
    simp [bonus, domestic, Effect.HasWholeDelta, Effect.scoreChange?, one, five]
  have turns : Agenda.ofEvents (sortActive [bonus, domestic]) [salary, signIn] =
      [(salary, bonus), (signIn, domestic)] := by
    have sorted : sortActive [bonus, domestic] = [bonus, domestic] := by
      simp [sortActive, bonus, domestic, isActive, List.mergeSort,
        List.MergeSort.Internal.splitInTwo]
    rw [sorted]
    rfl
  have met : Agenda.answer resident (salary, bonus) = .ok true ∧
      Agenda.answer resident (signIn, domestic) = .ok true := by
    decide +kernel
  have answers : ¬ Agenda.Unanswered [bonus, domestic] resident [salary, signIn] := by
    simp [Agenda.Unanswered, turns, met]
  have room : resident.HasRoom (Agenda.applied [bonus, domestic] resident [salary, signIn]) := by
    have applied : Agenda.applied [bonus, domestic] resident [salary, signIn] =
        bonus.effects ++ domestic.effects := by
      simp [Agenda.applied, Agenda.firing, turns, met]
    have few : 6 < Nat.pow 10 digitLimit := Number.digit_lt_limit (by decide)
    intro name
    have none : resident.points name = 0 := rfl
    have counted : Effect.turnover name (bonus.effects ++ domestic.effects) ≤ 6 := by
      by_cases trust : "trust" = name
      · subst trust
        decide
      · simp [Effect.turnover, Effect.scoreChange?, bonus, domestic, trust]
    rw [applied, none]
    omega
  exact ⟨distinctTags, wholeScores, blind, wholeDeltas, .swap _ _ _, room, answers,
    (evaluate_perm _ _ _ _ _ distinctTags wholeScores blind wholeDeltas (.swap _ _ _)).agree
      (.inl room)⟩

/-- A rule that changes one score by so many points. -/
def count (id : String) (event : EventKind) (points : Int) : Rule :=
  { id, name := id, status := .active, event
    effects := [.scoreDelta (some "s") (some (.int points))] }

def holder (points : Int) : Profile := { customerId := "C1", scores := [("s", .int points)] }

theorem score_holder (points : Int) : (holder points).score "s" = .int points := by
  by_cases none : points = 0 <;> simp [Profile.score, holder, Fields.get?, Number.isZero, none]

theorem turn_count {id : String} {event : Event} {points n : Int}
    (writable : (Number.int points).isWritable = true ∧ (Number.int n).isWritable = true ∧
      (Number.int (n + points)).isWritable = true) :
    (count id event.kind points).turn event (holder n) =
      .ok (some ⟨holder (n + points),
        [Effect.changeSpelling "s" (.int points) (.int n) (.int (n + points))]⟩) := by
  have told := (@Effect.changeText_eq_ok_iff "s" _ _ _ _).mpr ⟨writable, rfl⟩
  have sum : ((holder n).score "s").add (.int points) = .ok (.int (n + points)) := by
    rw [score_holder]
    rfl
  exact turn_eq_some_iff.mpr ⟨rfl,
    Effect.applyAll_scoreDelta_cons (by decide) sum (score_holder n ▸ told) rfl⟩

/-- The largest integer that can be written. -/
def brim : Int := Nat.pow 10 digitLimit - 1

def visitors : List Rule := [count "more" .login 1, count "less" .salaryCredit (-1)]

/-- A point more and then a point less fails, the other way round it does not. -/
theorem evaluate_not_perm_brim :
    (visitors.map id).Nodup ∧ (holder brim).tags.Nodup ∧ (holder brim).HasWholeScores ∧
    (∀ rule ∈ visitors, rule.isActive → ∀ condition ∈ rule.conditions, condition.Blind) ∧
    (∀ rule ∈ visitors, rule.isActive → ∀ effect ∈ rule.effects, effect.HasWholeDelta) ∧
    [signIn, salary].Perm [salary, signIn] ∧
    evaluate visitors (holder brim) [signIn, salary]
      (.midnight ⟨2026, 2, 5, by decide⟩ none) = .error .tooManyDigits ∧
    ∃ result, evaluate visitors (holder brim) [salary, signIn]
      (.midnight ⟨2026, 2, 5, by decide⟩ none) = .ok result := by
  have written : ∀ n : Int, (Number.int n).isWritable = true ↔ n.natAbs ≤ brim := by
    intro n
    rw [Number.isWritable_int_iff, brim]
    omega
  have large : 1 < brim := by
    have few := Number.digit_lt_limit (show 2 < 10 by decide)
    rw [brim]
    omega
  generalize brim = n at *
  have wholeScores : (holder n).HasWholeScores :=
    Profile.hasWholeScores_of_forall (by simp [holder, Number.isWhole_int])
  have wholeDeltas : ∀ rule ∈ visitors, rule.isActive → ∀ effect ∈ rule.effects,
      effect.HasWholeDelta := by
    simp [visitors, count, Effect.HasWholeDelta, Effect.scoreChange?, Number.isWhole_int]
  have sorted : sortActive visitors = visitors := by
    simp [visitors, sortActive, count, isActive, List.mergeSort,
      List.MergeSort.Internal.splitInTwo]
  have failed : Evaluation.Fails visitors (holder n) [signIn, salary] .tooManyDigits := by
    have sum : ((holder n).score "s").add (.int 1) = .ok (.int (n + 1)) := by
      rw [score_holder]
      rfl
    have unwritable : (Number.int (n + 1)).isWritable = false := by
      rw [← Bool.not_eq_true, written]
      omega
    refine ⟨[], signIn, count "more" .login 1, [(salary, count "less" .salaryCredit (-1))],
      holder n, [], ?_, .done _, ?_⟩
    · rw [sorted]
      rfl
    · exact .effect (by simp [count]) (List.nil_append _).symm rfl
        (.description (by decide) sum (.inr (.inr unwritable)))
  have returned : ∃ result, evaluate visitors (holder n) [salary, signIn]
      (.midnight ⟨2026, 2, 5, by decide⟩ none) = .ok result := by
    have less := @turn_count "less" salary (-1) n (by simp only [written]; omega)
    have more := @turn_count "more" signIn 1 (n + -1) (by simp only [written]; omega)
    have runs := Agenda.Runs.fired less (.fired more (.done _))
    have turns : Agenda.ofEvents (sortActive visitors) [salary, signIn] =
        [(salary, count "less" .salaryCredit (-1)), (signIn, count "more" .login 1)] := by
      rw [sorted]
      rfl
    exact ⟨⟨_, _⟩, evaluate_eq_ok_iff.mpr ⟨_, turns ▸ runs, rfl⟩⟩
  exact ⟨by decide, List.nodup_nil, wholeScores, by simp [visitors, count], wholeDeltas,
    .swap _ _ _, evaluate_eq_error_iff_fails.mpr failed, returned⟩

end Rule

end NextOffer
