import NextOffer.Proofs.Evaluation.Moment
import NextOffer.Proofs.WellFormed

/-! # What holds at every moment

From a well-formed profile on, every moment of an evaluation has a profile whose difference to
the first one is told by the effects that have been applied. Everything else is as it was, in
its order.
-/

namespace NextOffer

namespace Effect

variable {profile final : Profile} {effect : Effect} {effects : List Effect}

theorem Changes.filter_tags (change : Changes profile effect final) {apart : String → Bool}
    (untold : ∀ tag, apart tag = true → tagChanges tag [effect] = []) :
    final.tags.filter apart = profile.tags.filter apart := by
  have other : ∀ {tag added}, effect.tagChange? = some (tag, added) → apart tag = false := by
    intro tag added complete
    cases chosen : apart tag with
    | false => rfl
    | true =>
        have told := untold tag chosen
        simp [complete] at told
  cases change with
  | added complete =>
      dsimp only
      split
      · rfl
      · simp [other complete]
  | removed complete =>
      rw [← List.erase_filter]
      exact List.erase_of_not_mem (by simp [other complete])
  | scored | nothing => rfl

theorem Leads.filter_tags (leads : Leads profile effects final) {apart : String → Bool}
    (untold : ∀ tag, apart tag = true → tagChanges tag effects = []) :
    final.tags.filter apart = profile.tags.filter apart := by
  induction leads with
  | done => rfl
  | @step _ effect _ rest _ change _ ih =>
      have parts : ∀ tag, apart tag = true →
          tagChanges tag [effect] = [] ∧ tagChanges tag rest = [] := by
        intro tag chosen
        have silent := untold tag chosen
        rw [tagChanges_first_rest] at silent
        exact List.append_eq_nil_iff.mp silent
      exact (ih fun tag chosen => (parts tag chosen).2).trans
        (change.filter_tags fun tag chosen => (parts tag chosen).1)

end Effect

/-- A profile after some effects, compared with the first one. -/
structure Profile.Evolved (first : Profile) (applied : List Effect) (current : Profile) :
    Prop where
  tags_nodup : current.tags.Nodup
  /-- A tag is gone if the last effect about it removes it. -/
  removed : ∀ tag, (Effect.tagChanges tag applied).getLast? = some false → tag ∉ current.tags
  /-- A tag is there once if the last effect about it adds it. -/
  added : ∀ tag, (Effect.tagChanges tag applied).getLast? = some true →
    current.tags.count tag = 1
  customerId : current.customerId = first.customerId
  staticData : current.staticData = first.staticData
  behavioral : current.behavioral = first.behavioral
  /-- Score names stay in their places, and new ones follow. -/
  names_prefix : first.scores.names <+: current.scores.names
  names_nodup : current.scores.names.Nodup
  /-- A score that no effect writes keeps its value, kind included. -/
  unwritten : ∀ name, Effect.scoreChanges name applied = [] →
    current.scores.get? name = first.scores.get? name
  /-- A tag that no effect is about stays or stays away. -/
  untold : ∀ tag, Effect.tagChanges tag applied = [] → (tag ∈ current.tags ↔ tag ∈ first.tags)
  /-- Such tags keep their order. -/
  order : current.tags.filter (fun tag => Effect.tagChanges tag applied = []) =
    first.tags.filter fun tag => Effect.tagChanges tag applied = []

theorem Effect.Leads.evolved {first current : Profile} {applied : List Effect}
    (leads : Leads first applied current) (wellFormed : first.WellFormed) :
    first.Evolved applied current where
  tags_nodup := leads.tags_nodup wellFormed.tags
  removed tag last := by
    have present := leads.hasTag wellFormed.tags tag
    simpa [last, Profile.hasTag] using present
  added tag last := by
    have present := leads.hasTag wellFormed.tags tag
    have member : tag ∈ current.tags := by simpa [last, Profile.hasTag] using present
    exact List.count_eq_one_of_mem (leads.tags_nodup wellFormed.tags) member
  customerId := leads.fixed.1
  staticData := leads.fixed.2.1
  behavioral := leads.fixed.2.2
  names_prefix := leads.names_prefix
  names_nodup := leads.names_nodup wellFormed.scoreNames
  unwritten name := leads.get?_unwritten
  untold tag silent := by
    have present := leads.hasTag wellFormed.tags tag
    simpa [silent, Profile.hasTag] using present
  order := leads.filter_tags (by simp)

theorem Profile.Evolved.stamped {first current : Profile} {applied : List Effect}
    (evolved : first.Evolved applied current) (time : Option Timestamp) :
    first.Evolved applied { current with lastUpdated := time } := by
  cases evolved
  constructor <;> assumption

/-- What an evaluation keeps to from the first profile to the last one. -/
structure Evaluation.Evolves (rules : List Rule) (profile : Profile) (events : List Event)
    (now : Timestamp) : Prop where
  /-- Every profile that is reached has evolved by the effects that were applied so far. -/
  throughout : ∀ applied moment,
    Moment.Passage ⟨profile, [], Agenda.ofEvents (Rule.sortActive rules) events⟩ applied moment →
      profile.Evolved applied moment.profile
  /-- What is returned is the last profile that is reached, with a stamp. -/
  returned : ∀ result, evaluate rules profile events now = .ok result →
    ∃ applied final,
      Moment.Passage ⟨profile, [], Agenda.ofEvents (Rule.sortActive rules) events⟩ applied
        ⟨final, [], []⟩ ∧
      result.profile = { final with lastUpdated := some now } ∧
      profile.Evolved applied result.profile

/-- Evaluations keep well-formed profiles in shape. -/
theorem evaluate_evolves (rules : List Rule) (profile : Profile) (events : List Event)
    (now : Timestamp) (wellFormed : profile.WellFormed) :
    Evaluation.Evolves rules profile events now where
  throughout _ _ passage := passage.leads.evolved wellFormed
  returned result returned := by
    obtain ⟨final, runs, stamped⟩ := evaluate_eq_ok_iff.mp returned
    obtain ⟨applied, passage⟩ := Moment.passage_end_iff.mpr ⟨_, runs⟩
    refine ⟨applied, final, passage, stamped, ?_⟩
    rw [stamped]
    exact (passage.leads.evolved wellFormed).stamped _

namespace Rule

def wake : Rule :=
  { id := "wake", name := "Wake", status := .active, event := .login
    effects := [.removeTag (some "asleep")] }

def sleeper : Profile := { customerId := "C1", tags := ["asleep"] }

/-- The tag is in the input twice and is gone all the same once it is removed. -/
theorem evaluate_evolves_wake :
    Profile.reader (.object [("customerId", .string "C1"),
      ("tags", .strings ["asleep", "asleep"])]) = .accepted sleeper ∧
    sleeper.WellFormed ∧
    Moment.Passage ⟨sleeper, [], Agenda.ofEvents (sortActive [wake]) [⟨.login, []⟩]⟩
      [.removeTag (some "asleep")] ⟨{ sleeper with tags := [] }, [], []⟩ ∧
    Evaluation.Evolves [wake] sleeper [⟨.login, []⟩] (.midnight ⟨2026, 2, 5, by decide⟩ none) := by
  have accepted : Profile.reader (.object [("customerId", .string "C1"),
      ("tags", .strings ["asleep", "asleep"])]) = .accepted sleeper := rfl
  have wellFormed : sleeper.WellFormed := by
    refine Profile.wellFormed_of_reader accepted fun name inner found => ?_
    by_cases first : "customerId" = name <;> by_cases second : "tags" = name <;>
      simp [Json.Value.get?, Fields.get?, Json.Value.strings, first, second] at found
  have passage : Moment.Passage ⟨sleeper, [], Agenda.ofEvents (sortActive [wake]) [⟨.login, []⟩]⟩
      [.removeTag (some "asleep")] ⟨{ sleeper with tags := [] }, [], []⟩ := by
    have turns : Agenda.ofEvents (sortActive [wake]) [⟨.login, []⟩] = [(⟨.login, []⟩, wake)] := by
      simp [Agenda.ofEvents, Agenda.ofEvent, matching, sortActive, wake, isActive]
    rw [turns]
    exact .step (.fire rfl) (.step (.apply rfl) (.stay _))
  exact ⟨accepted, wellFormed, passage, evaluate_evolves _ _ _ _ wellFormed⟩

end Rule

end NextOffer
