import Mathlib.Data.List.Nodup
import NextOffer.Profile
import NextOffer.Proofs.Json.Within
import NextOffer.Rule

/-! # Profiles and events that are accepted

Reading a profile keeps each tag once, and the scores of an object have the names of its
entries. A profile that was read has therefore no tag and no score twice, which is all that
the rules rely on. Attributes, counters and the payloads of events are kept as they are, so
that they have no name twice at any depth.
-/

namespace NextOffer

namespace Schema

namespace Checked

variable {α : Type u} {β : Type u}

theorem seq_eq_accepted_iff {checks : Checked (α → β)} {check : Checked α} {result : β} :
    checks <*> check = .accepted result ↔
      ∃ f value, checks = .accepted f ∧ check = .accepted value ∧ f value = result := by
  cases checks <;> cases check <;> simp [Seq.seq, apply]

theorem map_eq_accepted_iff {f : α → β} {check : Checked α} {result : β} :
    f <$> check = .accepted result ↔ ∃ value, check = .accepted value ∧ f value = result := by
  cases check <;> simp [Functor.map, apply]

theorem apply_map_eq_accepted_iff {γ : Type u} {f : α → β → γ} {first : Checked α}
    {second : Checked β} {result : γ} :
    (first.map f).apply second = .accepted result ↔
      ∃ a b, first = .accepted a ∧ second = .accepted b ∧ f a b = result := by
  cases first <;> cases second <;> simp [map, apply]

theorem under_eq_accepted_iff {step : String} {check : Checked α} {value : α} :
    check.under step = .accepted value ↔ check = .accepted value := by
  cases check <;> simp [under]

end Checked

namespace Reader

theorem names_entriesFrom {α : Type} {read : Reader α} {entries : Fields Json.Value}
    {found : Fields α} (accepted : entriesFrom read entries = .accepted found) :
    found.names = entries.names := by
  induction entries generalizing found with
  | nil => cases accepted; rfl
  | cons entry rest ih =>
      obtain ⟨value, later, _, reached, rfl⟩ := Checked.apply_map_eq_accepted_iff.mp accepted
      simpa [Fields.names] using ih reached

theorem entriesFrom_anything (entries : Fields Json.Value) :
    entriesFrom anything entries = .accepted entries := by
  induction entries with
  | nil => rfl
  | cons entry rest ih =>
      rw [entriesFrom, ih]
      rfl

theorem optional_mapping_eq_accepted {α : Type} {read : Reader α} {entries : Fields Json.Value}
    {key : Key} {found : Fields α}
    (accepted : optional entries key [] (mapping read) = .accepted found) :
    found = [] ∨ ∃ name inner, entries.get? name = some (.object inner) ∧
      entriesFrom read inner = .accepted found := by
  unfold optional at accepted
  split at accepted
  case h_1 spelling value located =>
      have present : entries.get? spelling = some value := by
        unfold Key.find? at located
        split at located
        case h_1 preferred =>
            cases located
            exact preferred
        case h_2 =>
            obtain ⟨_, other, same⟩ := Option.map_eq_some_iff.mp located
            cases same
            exact other
      have read := Checked.under_eq_accepted_iff.mp accepted
      cases value with
      | object inner => exact .inr ⟨spelling, inner, present, read⟩
      | null | bool _ | number _ | string _ | array _ => cases read
  case h_2 =>
      cases accepted
      exact .inl rfl

theorem names_optional_mapping {α : Type} {read : Reader α} {entries : Fields Json.Value}
    {key : Key} {found : Fields α}
    (accepted : optional entries key [] (mapping read) = .accepted found) :
    found = [] ∨ ∃ name inner, entries.get? name = some (.object inner) ∧
      found.names = Fields.names inner := by
  refine (optional_mapping_eq_accepted accepted).imp_right ?_
  rintro ⟨name, inner, present, read⟩
  exact ⟨name, inner, present, names_entriesFrom read⟩

theorem everywhere_optional_mapping {holds : Json.Value → Prop} {entries found : Fields Json.Value}
    {key : Key} (empty : holds (.object []))
    (accepted : optional entries key [] (mapping anything) = .accepted found)
    (all : (Json.Value.object entries).Everywhere holds) :
    (Json.Value.object found).Everywhere holds := by
  rcases optional_mapping_eq_accepted accepted with rfl | ⟨name, inner, present, read⟩
  · exact .ofEntries empty (by simp)
  · rw [entriesFrom_anything] at read
    cases read
    exact all.entry (Fields.mem_of_get? present)

end Reader

end Schema

theorem nodup_eraseDups : ∀ labels : List String, labels.eraseDups.Nodup
  | [] => .nil
  | label :: rest => by
      rw [List.eraseDups_cons, List.nodup_cons, List.mem_eraseDups]
      exact ⟨by simp, nodup_eraseDups _⟩
termination_by labels => labels.length
decreasing_by exact Nat.lt_succ_of_le (List.length_filter_le _ _)

theorem eraseDups_of_nodup {labels : List String} (distinct : labels.Nodup) :
    labels.eraseDups = labels := by
  induction labels with
  | nil => rfl
  | cons label rest ih =>
      obtain ⟨fresh, later⟩ := List.nodup_cons.mp distinct
      have kept : rest.filter (fun other => !other == label) = rest := by
        rw [List.filter_eq_self]
        intro other member
        have apart : other ≠ label := by
          rintro rfl
          exact fresh member
        simpa using apart
      rw [List.eraseDups_cons, kept, ih later]

theorem eraseDups_append_of_nodup {first second : List String} (distinct : first.Nodup)
    (distinct' : second.Nodup) :
    (first ++ second).eraseDups = first ++ second.filter fun label => !first.contains label := by
  rw [List.eraseDups_append, eraseDups_of_nodup distinct]
  exact congrArg (first ++ ·) (eraseDups_of_nodup (distinct'.filter _))

namespace Profile

/-- No tag and no score name is there twice. -/
structure WellFormed (profile : Profile) : Prop where
  tags : profile.tags.Nodup
  scoreNames : profile.scores.names.Nodup

/-- What the reader accepts is well-formed, as long as no object in its input has a name
    twice. -/
theorem wellFormed_of_reader {value : Json.Value} {profile : Profile}
    (accepted : reader value = .accepted profile)
    (distinct : ∀ name inner, value.get? name = some (.object inner) →
      (Fields.names inner).Nodup) : profile.WellFormed := by
  cases value with
  | object entries =>
      obtain ⟨_, _, untilTags, -, rfl⟩ := Schema.Checked.seq_eq_accepted_iff.mp accepted
      obtain ⟨_, _, untilScores, kept, rfl⟩ := Schema.Checked.seq_eq_accepted_iff.mp untilTags
      obtain ⟨_, _, untilCounters, scored, rfl⟩ :=
        Schema.Checked.seq_eq_accepted_iff.mp untilScores
      obtain ⟨_, _, untilStatic, -, rfl⟩ := Schema.Checked.seq_eq_accepted_iff.mp untilCounters
      obtain ⟨_, _, customer, -, rfl⟩ := Schema.Checked.seq_eq_accepted_iff.mp untilStatic
      obtain ⟨_, -, rfl⟩ := Schema.Checked.map_eq_accepted_iff.mp customer
      obtain ⟨labels, -, rfl⟩ := Schema.Checked.map_eq_accepted_iff.mp kept
      refine ⟨nodup_eraseDups labels, ?_⟩
      rcases Schema.Reader.names_optional_mapping scored with rfl | ⟨name, inner, found, names⟩
      · exact .nil
      · exact names ▸ distinct name inner found
  | null | bool _ | number _ | string _ | array _ => cases accepted

theorem everywhere_of_reader {holds : Json.Value → Prop} {value : Json.Value} {profile : Profile}
    (empty : holds (.object [])) (accepted : reader value = .accepted profile)
    (all : value.Everywhere holds) :
    (Json.Value.object profile.staticData).Everywhere holds ∧
      (Json.Value.object profile.behavioral).Everywhere holds := by
  cases value with
  | object entries =>
      obtain ⟨_, _, untilTags, -, rfl⟩ := Schema.Checked.seq_eq_accepted_iff.mp accepted
      obtain ⟨_, _, untilScores, -, rfl⟩ := Schema.Checked.seq_eq_accepted_iff.mp untilTags
      obtain ⟨_, _, untilCounters, -, rfl⟩ := Schema.Checked.seq_eq_accepted_iff.mp untilScores
      obtain ⟨_, _, untilStatic, counters, rfl⟩ :=
        Schema.Checked.seq_eq_accepted_iff.mp untilCounters
      obtain ⟨_, _, customer, attributes, rfl⟩ :=
        Schema.Checked.seq_eq_accepted_iff.mp untilStatic
      obtain ⟨_, -, rfl⟩ := Schema.Checked.map_eq_accepted_iff.mp customer
      exact ⟨Schema.Reader.everywhere_optional_mapping empty attributes all,
        Schema.Reader.everywhere_optional_mapping empty counters all⟩
  | null | bool _ | number _ | string _ | array _ => cases accepted

/-- No score has a name twice, and neither has anything in attributes and counters, at any
    depth. -/
structure Distinct (profile : Profile) : Prop where
  scoreNames : profile.scores.names.Nodup
  staticData : (Json.Value.object profile.staticData).Everywhere Json.Value.HasDistinctNames
  behavioral : (Json.Value.object profile.behavioral).Everywhere Json.Value.HasDistinctNames

theorem wellFormed_distinct_of_reader {value : Json.Value} {profile : Profile}
    (accepted : reader value = .accepted profile)
    (distinct : value.Everywhere Json.Value.HasDistinctNames) :
    profile.WellFormed ∧ profile.Distinct := by
  have wellFormed : profile.WellFormed := by
    refine wellFormed_of_reader accepted fun name inner found => ?_
    cases value with
    | object entries => exact (distinct.entry (Fields.mem_of_get? found)).root
    | null | bool _ | number _ | string _ | array _ => cases found
  have data := everywhere_of_reader List.nodup_nil accepted distinct
  exact ⟨wellFormed, wellFormed.scoreNames, data.1, data.2⟩

end Profile

namespace Rule

open Schema

/-- Where fields of a rule were read from. -/
structure FieldsOf (entries : Fields Json.Value) (rule : Rule) : Prop where
  priority : Reader.optional entries (.plain "priority") 50 Reader.integer =
    .accepted rule.priority
  conditions : Reader.optional entries (.plain "conditions") [] (Reader.list Condition.reader) =
    .accepted rule.conditions
  effects : Reader.optional entries (.plain "effects") [] (Reader.list Effect.reader) =
    .accepted rule.effects
  scopes : Reader.optional entries (.plain "scopes") none (Reader.nullable Scopes.reader) =
    .accepted rule.scopes

theorem fields_of_reader {entries : Fields Json.Value} {rule : Rule}
    (accepted : reader (.object entries) = .accepted rule) : FieldsOf entries rule := by
  obtain ⟨_, _, untilVersion, -, rfl⟩ := Checked.seq_eq_accepted_iff.mp accepted
  obtain ⟨_, _, untilMetadata, -, rfl⟩ := Checked.seq_eq_accepted_iff.mp untilVersion
  obtain ⟨_, _, untilScopes, scopes, rfl⟩ := Checked.seq_eq_accepted_iff.mp untilMetadata
  obtain ⟨_, _, untilEffects, effects, rfl⟩ := Checked.seq_eq_accepted_iff.mp untilScopes
  obtain ⟨_, _, untilConditions, conditions, rfl⟩ := Checked.seq_eq_accepted_iff.mp untilEffects
  obtain ⟨_, _, untilEvent, -, rfl⟩ := Checked.seq_eq_accepted_iff.mp untilConditions
  obtain ⟨_, _, untilPriority, priority, rfl⟩ := Checked.seq_eq_accepted_iff.mp untilEvent
  obtain ⟨_, _, untilStatus, -, rfl⟩ := Checked.seq_eq_accepted_iff.mp untilPriority
  obtain ⟨_, _, untilName, -, rfl⟩ := Checked.seq_eq_accepted_iff.mp untilStatus
  obtain ⟨_, -, rfl⟩ := Checked.map_eq_accepted_iff.mp untilName
  exact ⟨priority, conditions, effects, scopes⟩

end Rule

namespace Event

/-- Nothing in the payload of an event has a name twice, at any depth. -/
def Distinct (event : Event) : Prop :=
  (Json.Value.object event.payload).Everywhere Json.Value.HasDistinctNames

end Event

end NextOffer
