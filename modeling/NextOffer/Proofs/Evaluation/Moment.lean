import NextOffer.Proofs.Evaluation.Change

/-! # The moments of an evaluation

Between two turns, and between two effects of a rule that fires, an evaluation has a profile.
These are its moments. Each leads to the next in one of three ways, and an evaluation returns
the profile of a moment at which nothing is left to do.
-/

namespace NextOffer

/-- The profile at some moment, the effects that a firing rule has yet to apply, and the turns
    that are yet to be taken. -/
structure Moment where
  profile : Profile
  effects : List Effect
  agenda : Agenda

namespace Moment

/-- From one moment to the next, with the effect that is applied, if any is. -/
inductive Step : Moment → List Effect → Moment → Prop where
  | pass {profile event rule agenda}
      (unmet : Condition.allHold (evaluationContext profile event) rule.conditions = .ok false) :
      Step ⟨profile, [], (event, rule) :: agenda⟩ [] ⟨profile, [], agenda⟩
  | fire {profile event rule agenda}
      (met : Condition.allHold (evaluationContext profile event) rule.conditions = .ok true) :
      Step ⟨profile, [], (event, rule) :: agenda⟩ [] ⟨profile, rule.effects, agenda⟩
  | apply {profile effect effects agenda applied} (done : effect.apply profile = .ok applied) :
      Step ⟨profile, effect :: effects, agenda⟩ [effect] ⟨applied.profile, effects, agenda⟩

/-- From one moment to a later one, with the effects that are applied in between. -/
inductive Passage : Moment → List Effect → Moment → Prop where
  | stay (moment) : Passage moment [] moment
  | step {first effects next applied last} (move : Step first effects next)
      (onward : Passage next applied last) : Passage first (effects ++ applied) last

theorem Passage.leads {first last : Moment} {applied : List Effect}
    (passage : Passage first applied last) : Effect.Leads first.profile applied last.profile := by
  induction passage with
  | stay => exact .done _
  | step move _ ih =>
      cases move with
      | pass | fire => exact ih
      | apply done => exact .step (Effect.apply_changes done) ih

theorem passage_applyAll {profile middle : Profile} {effects applied : List Effect}
    {texts : List String} {agenda : Agenda} {last : Moment}
    (done : Effect.applyAll profile effects = .ok (middle, texts))
    (onward : Passage ⟨middle, [], agenda⟩ applied last) :
    Passage ⟨profile, effects, agenda⟩ (effects ++ applied) last := by
  induction effects generalizing profile texts with
  | nil => cases done; exact onward
  | cons effect rest ih =>
      obtain ⟨change, first, later⟩ := Outcome.bind_eq_ok_iff.mp done
      obtain ⟨_, reached, same⟩ := Outcome.bind_eq_ok_iff.mp later
      cases same
      exact @Passage.step _ [effect] _ (rest ++ applied) _ (.apply first) (ih reached)

theorem passage_of_runs {profile final : Profile} {agenda : Agenda} {trace : List TraceEntry}
    (runs : Agenda.Runs profile agenda final trace) :
    ∃ applied, Passage ⟨profile, [], agenda⟩ applied ⟨final, [], []⟩ := by
  induction runs with
  | done => exact ⟨[], .stay _⟩
  | idle taken _ ih =>
      obtain ⟨applied, onward⟩ := ih
      exact ⟨applied, .step (.pass (Rule.turn_eq_none_iff.mp taken)) onward⟩
  | fired taken _ ih =>
      obtain ⟨applied, onward⟩ := ih
      obtain ⟨met, done⟩ := Rule.turn_eq_some_iff.mp taken
      exact ⟨_, .step (.fire met) (passage_applyAll done onward)⟩

theorem runs_of_passage {first last : Moment} {applied : List Effect}
    (passage : Passage first applied last) (noEffects : last.effects = [])
    (noTurns : last.agenda = []) :
    ∃ middle texts trace, Effect.applyAll first.profile first.effects = .ok (middle, texts) ∧
      Agenda.Runs middle first.agenda last.profile trace := by
  induction passage with
  | stay moment =>
      rw [noEffects, noTurns]
      exact ⟨_, [], [], rfl, .done _⟩
  | step move _ ih =>
      obtain ⟨middle, texts, trace, done, runs⟩ := ih noEffects noTurns
      cases move with
      | pass unmet =>
          cases done
          exact ⟨_, [], trace, rfl, .idle (Rule.turn_eq_none_iff.mpr unmet) runs⟩
      | @fire profile event rule agenda met =>
          have taken : rule.turn event profile = .ok (some ⟨middle, texts⟩) :=
            Rule.turn_eq_some_iff.mpr ⟨met, done⟩
          exact ⟨profile, [], _, rfl, .fired taken runs⟩
      | @apply profile effect effects agenda change taken =>
          have front : Effect.applyAll profile (effect :: effects) = .ok (middle,
              if change.description = "" then texts else change.description :: texts) := by
            simp [Effect.applyAll, taken, done]
          exact ⟨middle, _, trace, front, runs⟩

/-- The last moments are where runs along the agenda end. -/
theorem passage_end_iff {profile final : Profile} {agenda : Agenda} :
    (∃ applied, Passage ⟨profile, [], agenda⟩ applied ⟨final, [], []⟩) ↔
      ∃ trace, Agenda.Runs profile agenda final trace := by
  constructor
  · rintro ⟨applied, passage⟩
    obtain ⟨middle, texts, trace, done, runs⟩ := runs_of_passage passage rfl rfl
    cases done
    exact ⟨trace, runs⟩
  · rintro ⟨trace, runs⟩
    exact passage_of_runs runs

/-- The moment before the first turn of an evaluation. -/
def start (rules : List Rule) (profile : Profile) (events : List Event) : Moment :=
  ⟨profile, [], Agenda.ofEvents (Rule.sortActive rules) events⟩

theorem Passage.extend {first last : Moment} {applied : List Effect}
    (passage : Passage first applied last) (more : Agenda) :
    Passage { first with agenda := first.agenda ++ more } applied
      { last with agenda := last.agenda ++ more } := by
  induction passage with
  | stay => exact .stay _
  | step move _ ih =>
      refine .step ?_ ih
      cases move with
      | pass unmet => exact .pass unmet
      | fire met => exact .fire met
      | apply done => exact .apply done

end Moment

/-- An evaluation with a result comes to every turn on its agenda. -/
def Evaluation.TakesTurns (rules : List Rule) (profile : Profile) (events : List Event)
    (now : Timestamp) : Prop :=
  ∀ result before event rule later, evaluate rules profile events now = .ok result →
    Agenda.ofEvents (Rule.sortActive rules) events = before ++ (event, rule) :: later →
    ∃ applied current, Moment.Passage (Moment.start rules profile events) applied
      ⟨current, [], (event, rule) :: later⟩

theorem Evaluation.takesTurns (rules : List Rule) (profile : Profile) (events : List Event)
    (now : Timestamp) : Evaluation.TakesTurns rules profile events now := by
  intro result before event rule later returned turns
  obtain ⟨final, runs, -⟩ := evaluate_eq_ok_iff.mp returned
  rw [turns] at runs
  obtain ⟨current, _, _, reached, -, -⟩ := Agenda.Runs.append_iff.mp runs
  obtain ⟨applied, passage⟩ := Moment.passage_end_iff.mpr ⟨_, reached⟩
  refine ⟨applied, current, ?_⟩
  rw [Moment.start, turns]
  exact passage.extend ((event, rule) :: later)

end NextOffer
