import NextOffer.Proofs.Condition.Incomplete
import NextOffer.Proofs.Evaluation.Moment
import NextOffer.Proofs.Fields
import NextOffer.Proofs.Json.EntryOrder
import NextOffer.Proofs.Path
import NextOffer.Proofs.Text

/-! # What later turns see

Effects write a score under its name and a tag as it is spelled. Conditions look for a score along
a dotted path, and for a tag in the text that joins all tags, in lower case. A rule whose turn
comes later sees a tag that is there, and a score whose name has no dot. A dot in the name of a
score divides it on the path, so that no condition comes to such a score.
-/

namespace NextOffer

namespace Effect

variable {profile final : Profile} {effect : Effect} {effects : List Effect} {tag : String}

private theorem mem_append_new (labels : List String) (label : String) :
    label ∈ (if label ∈ labels then labels else labels ++ [label]) := by
  split
  case isTrue present => exact present
  case isFalse => exact List.mem_append_right _ (List.mem_singleton_self label)

theorem Changes.mem_names {name : String} {delta : Number}
    (change : Changes profile effect final)
    (complete : effect.scoreChange? = some (name, delta)) : name ∈ final.scores.names := by
  cases change with
  | scored written =>
      cases complete.symm.trans written
      dsimp only
      rw [Fields.names_set]
      exact mem_append_new _ name
  | added _ scoreless | removed _ scoreless | nothing scoreless =>
      cases complete.symm.trans scoreless

theorem Leads.get?_written {name : String} {delta : Number} (leads : Leads profile effects final)
    (member : effect ∈ effects) (complete : effect.scoreChange? = some (name, delta)) :
    ∃ value, final.scores.get? name = some value := by
  induction leads with
  | done => cases member
  | step change later ih =>
      rcases List.mem_cons.mp member with rfl | member
      · have kept := later.names_prefix.subset (change.mem_names complete)
        rw [← Option.ne_none_iff_exists']
        exact fun absent => Fields.get?_eq_none_iff.mp absent kept
      · exact ih member

theorem eq_removeTag (complete : effect.tagChange? = some (tag, false)) :
    effect = .removeTag (some tag) := by
  unfold tagChange? at complete
  split at complete <;> simp_all

theorem Changes.mem_tags (change : Changes profile effect final)
    (other : effect ≠ .removeTag (some tag)) (present : tag ∈ profile.tags) :
    tag ∈ final.tags := by
  cases change with
  | scored | nothing => exact present
  | added =>
      dsimp only
      split
      · exact present
      · exact List.mem_append_left _ present
  | removed complete =>
      refine (List.mem_erase_of_ne ?_).mpr present
      rintro rfl
      exact other (eq_removeTag complete)

theorem Leads.mem_tags (leads : Leads profile effects final)
    (kept : .removeTag (some tag) ∉ effects) (present : tag ∈ profile.tags) :
    tag ∈ final.tags := by
  induction leads with
  | done => exact present
  | step change _ ih =>
      have other := List.ne_of_not_mem_cons kept
      exact ih (List.not_mem_of_not_mem_cons kept) (change.mem_tags other.symm present)

theorem Changes.mem_tags_added (change : Changes profile (.addTag (some tag)) final)
    (named : tag ≠ "") : tag ∈ final.tags := by
  have complete : tagChange? (.addTag (some tag)) = some (tag, true) := if_neg named
  cases change with
  | added told =>
      cases complete.symm.trans told
      exact mem_append_new profile.tags tag
  | removed told => cases complete.symm.trans told
  | scored _ tagless | nothing _ tagless => cases complete.symm.trans tagless

theorem Leads.mem_tags_added {front back : List Effect}
    (leads : Leads profile (front ++ .addTag (some tag) :: back) final) (named : tag ≠ "")
    (kept : .removeTag (some tag) ∉ back) : tag ∈ final.tags := by
  generalize whole : front ++ .addTag (some tag) :: back = effects at leads
  induction leads generalizing front with
  | done => exact absurd whole (by simp)
  | step change later ih =>
      cases front with
      | nil =>
          obtain ⟨rfl, rfl⟩ := List.cons.inj whole
          exact later.mem_tags kept (change.mem_tags_added named)
      | cons first front => exact ih (List.cons.inj whole).2

end Effect

theorem Json.Value.step?_ofNumbers (scores : Fields Number) (name : String) :
    (ofNumbers scores).step? name = (scores.get? name).map .number := by
  simp only [step?, ofNumbers, get?, Fields.get?_mapValues]
  cases scores.get? name <;> rfl

namespace Path

variable (profile : Profile) (event : Event)

theorem names_score (name : String) :
    names ("profile.scores." ++ name) = "profile" :: "scores" :: names name := by
  have parts : names "profile.scores" = ["profile", "scores"] := by decide
  rw [show "profile.scores." = "profile.scores" ++ "." from rfl, names_append, parts]
  rfl

/-- The path to a score leads to its value, unless a dot divides the name. -/
theorem resolve?_score (name : String) :
    resolve? (evaluationContext profile event) ("profile.scores." ++ name) =
      if '.' ∈ name.toList then none else (profile.scores.get? name).map .number := by
  have scores : resolve? (evaluationContext profile event) ("profile.scores." ++ name) =
      (Json.Value.ofNumbers profile.scores).walk? (names name) := by
    rw [resolve?, names_score]
    rfl
  rw [scores]
  split
  case isTrue dotted =>
      -- The first part may be the name of another score; its value has no entries.
      obtain ⟨first, second, rest, divided⟩ := names_of_dotted dotted
      rw [divided, Json.Value.walk?, Json.Value.step?_ofNumbers]
      cases profile.scores.get? first <;> rfl
  case isFalse dotless =>
      rw [names_of_dotless dotless, Json.Value.walk?, Json.Value.step?_ofNumbers]
      cases profile.scores.get? name <;> rfl

theorem resolve?_tags :
    resolve? (evaluationContext profile event) "profile.tags" = some (.strings profile.tags) := rfl

end Path

/-- What conditions at an event see of a score with this value. -/
structure Profile.ShowsScore (profile : Profile) (event : Event) (name : String)
    (value : Number) : Prop where
  stored : profile.scores.get? name = some value
  /-- The path to a name without a dot leads to the value. -/
  found : '.' ∉ name.toList →
    Path.resolve? (evaluationContext profile event) ("profile.scores." ++ name) =
      some (.number value)
  /-- A condition with this path compares the value. -/
  compared : '.' ∉ name.toList → ∀ (condition : Condition) (op : Operator),
    condition.source = "profile.scores." ++ name → Operator.ofWord? condition.sign = some op →
    condition.holds (evaluationContext profile event) =
      op.compare (.number value) condition.target
  /-- The path to a name with a dot leads nowhere. -/
  hidden : '.' ∈ name.toList →
    Path.resolve? (evaluationContext profile event) ("profile.scores." ++ name) = none
  /-- No condition with such a path holds. -/
  refused : '.' ∈ name.toList → ∀ condition : Condition,
    condition.source = "profile.scores." ++ name →
    condition.holds (evaluationContext profile event) = .ok false

theorem Profile.showsScore_of_get? {profile : Profile} {name : String} {value : Number}
    (stored : profile.scores.get? name = some value) (event : Event) :
    profile.ShowsScore event name value := by
  have path := Path.resolve?_score profile event name
  constructor
  case stored => exact stored
  case found =>
      intro dotless
      rw [path, if_neg dotless, stored]
      rfl
  case compared =>
      intro dotless condition op source known
      have present : Json.Value.number value ≠ .null := nofun
      rw [Condition.holds, source, path, if_neg dotless, stored, Option.map_some,
        satisfies_some present, known]
  case hidden =>
      intro dotted
      rw [path, if_pos dotted]
  case refused =>
      intro dotted condition source
      rw [Condition.holds, source, path, if_pos dotted]
      rfl

/-- What an evaluation shows of the scores that it writes. -/
structure Evaluation.ShowsScores (rules : List Rule) (profile : Profile) (events : List Event)
    (now : Timestamp) : Prop where
  turns : Evaluation.TakesTurns rules profile events now
  /-- A turn shows the present value of every score that was written before. -/
  shown : ∀ applied current event rule later,
    Moment.Passage (Moment.start rules profile events) applied
      ⟨current, [], (event, rule) :: later⟩ →
    ∀ effect ∈ applied, ∀ name delta, effect.scoreChange? = some (name, delta) →
      ∃ value, current.ShowsScore event name value

theorem evaluate_shows_scores (rules : List Rule) (profile : Profile) (events : List Event)
    (now : Timestamp) : Evaluation.ShowsScores rules profile events now where
  turns := Evaluation.takesTurns rules profile events now
  shown _ _ event _ _ passage _ member _ _ complete := by
    obtain ⟨value, stored⟩ := passage.leads.get?_written member complete
    exact ⟨value, Profile.showsScore_of_get? stored event⟩

namespace Rule

/-- Changes one score step by step. -/
def adjust (name : String) (deltas : List Number) : Rule :=
  { id := "adjust", name := "Adjust", status := .active, priority := 90, event := .login
    effects := deltas.map fun delta => .scoreDelta (some name) (some delta) }

/-- Fires when a score has a value. -/
def rate (name : String) (value : Number) : Rule :=
  { id := "rate", name := "Rate", status := .active, priority := 10, event := .login
    conditions := [⟨"profile.scores." ++ name, "=", some (.scalar (.number value))⟩]
    effects := [.addTag (some "rated")] }

theorem turns_adjust_rate (name : String) (deltas : List Number) (value : Number) :
    Agenda.ofEvents (sortActive [rate name value, adjust name deltas]) [⟨.login, []⟩] =
      [(⟨.login, []⟩, adjust name deltas), (⟨.login, []⟩, rate name value)] := by
  simp [Agenda.ofEvents, Agenda.ofEvent, matching, sortActive, adjust, rate, isActive,
    List.mergeSort, List.MergeSort.Internal.splitInTwo]

/-- A score that comes back to zero is there all the same. -/
theorem evaluate_shows_scores_zero :
    ∃ applied current, Moment.Passage
        (Moment.start [rate "limit" 0, adjust "limit" [1, .int (-1)]] { customerId := "C1" }
          [⟨.login, []⟩])
        applied ⟨current, [], [(⟨.login, []⟩, rate "limit" 0)]⟩ ∧
      .scoreDelta (some "limit") (some 1) ∈ applied ∧
      current.scores = [("limit", .int 0)] ∧
      Condition.allHold (evaluationContext current ⟨.login, []⟩) (rate "limit" 0).conditions =
        .ok true ∧
      ∃ value, current.ShowsScore ⟨.login, []⟩ "limit" value := by
  have passage : Moment.Passage
      (Moment.start [rate "limit" 0, adjust "limit" [1, .int (-1)]] { customerId := "C1" }
        [⟨.login, []⟩])
      [.scoreDelta (some "limit") (some 1), .scoreDelta (some "limit") (some (.int (-1)))]
      ⟨{ customerId := "C1", scores := [("limit", .int 0)] }, [],
        [(⟨.login, []⟩, rate "limit" 0)]⟩ := by
    rw [Moment.start, turns_adjust_rate]
    exact .step (.fire rfl) (.step (.apply rfl) (.step (.apply rfl) (.stay _)))
  have shows := evaluate_shows_scores [rate "limit" 0, adjust "limit" [1, .int (-1)]]
    { customerId := "C1" } [⟨.login, []⟩] (.midnight ⟨2026, 2, 5, by decide⟩ none)
  have first : Effect.scoreDelta (some "limit") (some 1) ∈
      [Effect.scoreDelta (some "limit") (some 1), .scoreDelta (some "limit") (some (.int (-1)))] :=
    List.mem_cons_self
  exact ⟨_, _, passage, first, rfl, rfl, shows.shown _ _ _ _ _ passage _ first "limit" 1 rfl⟩

/-- A score is written under a name with a dot, and the rule after it does not find it. -/
theorem evaluate_hides_dotted_score :
    ∃ applied current, Moment.Passage
        (Moment.start [rate "credit.limit" 1, adjust "credit.limit" [1]] { customerId := "C1" }
          [⟨.login, []⟩])
        applied ⟨current, [], [(⟨.login, []⟩, rate "credit.limit" 1)]⟩ ∧
      .scoreDelta (some "credit.limit") (some 1) ∈ applied ∧
      current.scores.get? "credit.limit" = some (.int 1) ∧
      Path.resolve? (evaluationContext current ⟨.login, []⟩) "profile.scores.credit.limit" = none ∧
      (rate "credit.limit" 1).turn ⟨.login, []⟩ current = .ok none := by
  have passage : Moment.Passage
      (Moment.start [rate "credit.limit" 1, adjust "credit.limit" [1]] { customerId := "C1" }
        [⟨.login, []⟩])
      [.scoreDelta (some "credit.limit") (some 1)]
      ⟨{ customerId := "C1", scores := [("credit.limit", .int 1)] }, [],
        [(⟨.login, []⟩, rate "credit.limit" 1)]⟩ := by
    rw [Moment.start, turns_adjust_rate]
    exact .step (.fire rfl) (.step (.apply rfl) (.stay _))
  exact ⟨_, _, passage, List.mem_cons_self, rfl, rfl, rfl⟩

end Rule

/-- The condition that a tag is among the tags of the profile. -/
def Condition.tagged (tag : String) : Condition :=
  ⟨"profile.tags", "contains", some (.scalar (.text tag))⟩

theorem Json.Value.folded_strings (texts : List String) :
    (strings texts).folded = [','].intercalate (texts.map fun text => (string text).folded) := by
  rw [folded, strings, flatChars, flatItems_eq, Text.lower_intercalate, List.map_map, List.map_map]
  rfl

/-- A tag is found among all others, wherever it stands. -/
theorem Condition.tagged_holds {profile : Profile} {tag : String} (present : tag ∈ profile.tags)
    (event : Event) : (tagged tag).holds (evaluationContext profile event) = .ok true := by
  have compared : Operator.contains.compare (.strings profile.tags) (.string tag) =
      .ok (Text.occursIn (Json.Value.string tag).folded
        (Json.Value.strings profile.tags).folded) := by
    have texts := Json.Value.foldedText_of_isWritable (Json.Value.isWritable_strings profile.tags)
    have text : (Json.Value.string tag).foldedText = .ok (Json.Value.string tag).folded := rfl
    simp only [Operator.compare, Operator.order?, texts, text]
    rfl
  have filled : Json.Value.strings profile.tags ≠ .null := fun absent => by cases absent
  refine holds_eq_true_iff.mpr ⟨_, .contains, Path.resolve?_tags profile event, filled, rfl,
    compared.trans (congrArg Except.ok ?_)⟩
  rw [Text.occursIn_iff_infix, Json.Value.folded_strings]
  exact Text.infix_intercalate [','] (List.mem_map.mpr ⟨tag, present, rfl⟩)

/-- What an evaluation shows of tags. -/
structure Evaluation.ShowsTags (rules : List Rule) (profile : Profile) (events : List Event)
    (now : Timestamp) : Prop where
  turns : Evaluation.TakesTurns rules profile events now
  /-- A turn shows every tag that was added before, unless it was removed again. -/
  added : ∀ front tag back current event rule later, tag ≠ "" →
    Moment.Passage (Moment.start rules profile events) (front ++ .addTag (some tag) :: back)
      ⟨current, [], (event, rule) :: later⟩ →
    .removeTag (some tag) ∉ back →
    (Condition.tagged tag).holds (evaluationContext current event) = .ok true
  /-- A turn shows every tag of the first profile, unless it was removed. -/
  kept : ∀ applied current event rule later, ∀ tag ∈ profile.tags,
    Moment.Passage (Moment.start rules profile events) applied
      ⟨current, [], (event, rule) :: later⟩ →
    .removeTag (some tag) ∉ applied →
    (Condition.tagged tag).holds (evaluationContext current event) = .ok true
  /-- The first profile shows its tags at every event. -/
  initially : ∀ tag ∈ profile.tags, ∀ event,
    (Condition.tagged tag).holds (evaluationContext profile event) = .ok true

theorem evaluate_shows_tags (rules : List Rule) (profile : Profile) (events : List Event)
    (now : Timestamp) : Evaluation.ShowsTags rules profile events now where
  turns := Evaluation.takesTurns rules profile events now
  added _ _ _ _ event _ _ named passage kept :=
    Condition.tagged_holds (passage.leads.mem_tags_added named kept) event
  kept _ _ event _ _ _ member passage kept :=
    Condition.tagged_holds (passage.leads.mem_tags kept member) event
  initially _ member event := Condition.tagged_holds member event

namespace Rule

/-- Adds a tag whose last letter, a sigma, has a form of its own at the end of a word. -/
def road : Rule :=
  { id := "road", name := "Road", status := .active, event := .login
    effects := [.addTag (some "ΟΔΟΣ")] }

/-- The sigma is in its final form between tags as it is at the end of the text. -/
theorem evaluate_shows_tags_sigma :
    ∃ current, Moment.Passage
        (Moment.start [road] { customerId := "C1", tags := ["ΦΩΣ"] } [⟨.login, []⟩, ⟨.login, []⟩])
        [.addTag (some "ΟΔΟΣ")] ⟨current, [], [(⟨.login, []⟩, road)]⟩ ∧
      current.tags = ["ΦΩΣ", "ΟΔΟΣ"] ∧
      (Condition.tagged "ΟΔΟΣ").holds (evaluationContext current ⟨.login, []⟩) = .ok true ∧
      (Condition.tagged "ΦΩΣ").holds (evaluationContext current ⟨.login, []⟩) = .ok true := by
  have passage : Moment.Passage
      (Moment.start [road] { customerId := "C1", tags := ["ΦΩΣ"] } [⟨.login, []⟩, ⟨.login, []⟩])
      [.addTag (some "ΟΔΟΣ")]
      ⟨{ customerId := "C1", tags := ["ΦΩΣ", "ΟΔΟΣ"] }, [], [(⟨.login, []⟩, road)]⟩ := by
    have turns : Agenda.ofEvents (sortActive [road]) [⟨.login, []⟩, ⟨.login, []⟩] =
        [(⟨.login, []⟩, road), (⟨.login, []⟩, road)] := by
      simp [Agenda.ofEvents, Agenda.ofEvent, matching, sortActive, road, isActive]
    rw [Moment.start, turns]
    exact .step (.fire rfl) (.step (.apply rfl) (.stay _))
  have shows := evaluate_shows_tags [road] { customerId := "C1", tags := ["ΦΩΣ"] }
    [⟨.login, []⟩, ⟨.login, []⟩] (.midnight ⟨2026, 2, 5, by decide⟩ none)
  exact ⟨_, passage, rfl,
    shows.added [] "ΟΔΟΣ" [] _ _ _ _ (by decide) passage List.not_mem_nil,
    shows.kept _ _ _ _ _ "ΦΩΣ" List.mem_cons_self passage (by decide)⟩

end Rule

end NextOffer
