import NextOffer.Proofs.Reloading
import NextOffer.Rule

/-! # Records are read once and for all

What a reader accepts may be written in many ways: numbers as texts, tags twice, points in time as
counts of seconds. The value of the record that was read has one way for each, and reading it gives
the same record, under names of either kind. Profiles and events have such a value as long as their
data are not too high for a dump.
-/

namespace NextOffer

open Json Schema

/-! ## Points in time -/

namespace Calendar

theorem val_of_offset {micros : Int} {offset : Offset} (within : Offset.of? micros = some offset) :
    offset.val = micros := by
  rw [Offset.of?, Option.dite_none_right_eq_some] at within
  obtain ⟨_, found⟩ := within
  rw [← Option.some.inj found]

theorem whole_of_dataOffset? {cs : List Char} {offset : Option Offset}
    (read : dataOffset? cs = some offset) : ∀ given ∈ offset, given.val % 60000000 = 0 := by
  unfold dataOffset? at read
  split at read
  case isTrue =>
      cases read
      rintro _ ⟨⟩
  case isFalse =>
  split at read
  case isTrue =>
      cases read
      rintro _ ⟨⟩
      decide
  case isFalse =>
      dsimp only at read
      split at read
      case isFalse => cases read
      obtain ⟨⟨hours, behind⟩, -, read⟩ := Option.bind_eq_some_iff.mp read
      obtain ⟨⟨minutes, rest⟩, -, read⟩ := Option.bind_eq_some_iff.mp read
      dsimp only at read
      split at read
      case isFalse => cases read
      obtain ⟨found, within, same⟩ := Option.bind_eq_some_iff.mp read
      cases same
      have position := val_of_offset within
      rintro _ ⟨⟩
      omega

theorem whole_of_dataClock? {cs : List Char} {second : Fin 86400} {microsecond : Fin 1000000}
    {offset : Option Offset} (read : dataClock? cs = some (second, microsecond, offset)) :
    ∀ given ∈ offset, given.val % 60000000 = 0 := by
  unfold dataClock? at read
  obtain ⟨separator, -, read⟩ := Option.bind_eq_some_iff.mp read
  split at read
  case isFalse => cases read
  obtain ⟨⟨hour, _⟩, -, read⟩ := Option.bind_eq_some_iff.mp read
  obtain ⟨_, -, read⟩ := Option.bind_eq_some_iff.mp read
  obtain ⟨⟨minute, _⟩, -, read⟩ := Option.bind_eq_some_iff.mp read
  obtain ⟨⟨_, _, behind⟩, -, read⟩ := Option.bind_eq_some_iff.mp read
  obtain ⟨_, -, read⟩ := Option.bind_eq_some_iff.mp read
  obtain ⟨_, found, same⟩ := Option.bind_eq_some_iff.mp read
  cases same
  exact whole_of_dataOffset? found

end Calendar

namespace Timestamp

open Calendar

theorem hasWholeMinutes_of_universal {t : Timestamp}
    (universal : t.offset = some Offset.universal) :
    t.HasWholeMinutes := by
  rw [HasWholeMinutes, universal]
  rintro _ ⟨⟩
  decide

theorem hasWholeMinutes_of_ofCount {inMilliseconds : Bool} {count : Int} {more : Nat}
    {t : Timestamp} (read : ofCount inMilliseconds count more = .ok t) : t.HasWholeMinutes := by
  unfold ofCount ofSeconds at read
  dsimp only at read
  split_ifs at read
  all_goals
    split at read
    case h_1 found =>
        cases read
        obtain ⟨date, -, rfl⟩ := Option.map_eq_some_iff.mp found
        exact hasWholeMinutes_of_universal rfl
    case h_2 => cases read

theorem hasWholeMinutes_of_ofNumber {x : Number} {t : Timestamp} (read : ofNumber x = .ok t) :
    t.HasWholeMinutes := by
  cases x with
  | int n => exact hasWholeMinutes_of_ofCount read
  | real x =>
      cases x with
      | nan | infinity negative => cases read
      | finite negative quanta _ =>
          rw [ofNumber, ofReal] at read
          exact hasWholeMinutes_of_ofCount read

theorem hasWholeMinutes_of_ofDatedText {text : String} {t : Timestamp}
    (read : ofDatedText text = .ok t) : t.HasWholeMinutes := by
  obtain ⟨⟨year, month, day, rest⟩, -, read⟩ := Outcome.bind_eq_ok_iff.mp read
  dsimp only at read
  split at read
  case isTrue =>
      rw [pure_bind] at read
      split at read <;> cases read
      rintro _ ⟨⟩
  case isFalse =>
  split at read
  case h_1 clock found =>
      rw [pure_bind] at read
      split at read <;> cases read
      exact whole_of_dataClock? found
  case h_2 => cases read

theorem hasWholeMinutes_of_ofDataText {text : String} {t : Timestamp}
    (read : ofDataText text = .ok t) : t.HasWholeMinutes := by
  unfold ofDataText at read
  split at read
  case h_1 =>
      split at read
      case h_1 counted =>
          cases read
          exact hasWholeMinutes_of_ofNumber counted
      all_goals cases read
  case h_2 => exact hasWholeMinutes_of_ofDatedText read

theorem hasWholeMinutes_of_moment {value : Value} {t : Timestamp}
    (accepted : Reader.moment value = .accepted t) : t.HasWholeMinutes := by
  have moment {result : Except MomentFault Timestamp}
      (found : Reader.ofMoment result = .accepted t) :
      result = .ok t := by
    unfold Reader.ofMoment at found
    split at found <;> cases found
    rfl
  cases value with
  | number x =>
      rw [Reader.moment] at accepted
      split at accepted
      case h_1 => exact hasWholeMinutes_of_ofNumber (moment accepted)
      case h_2 => cases accepted
  | string text => exact hasWholeMinutes_of_ofDataText (moment accepted)
  | null | bool _ | array _ | object _ => cases accepted

end Timestamp

/-! ## The values of rules and events -/

namespace Schema.Reader

theorem word_status (status : Status) :
    word (Status.all.map Status.word) Status.ofWord? (.string status.word) = .accepted status := by
  cases status <;> rfl

theorem reader_eventKind (kind : EventKind) :
    EventKind.reader (.string kind.word) = .accepted kind := by
  cases kind <;> rfl

theorem integer_int (n : Int) : integer (.int n) = .accepted n := rfl

theorem nullable_text (written : Option String) :
    nullable text (.orNull .string written) = .accepted written :=
  nullable_orNull (fun _ => nofun) fun _ _ => rfl

theorem nullable_number (written : Option Number) :
    nullable number (.orNull .number written) = .accepted written :=
  nullable_orNull (fun _ => nofun) fun _ _ => rfl

theorem nullable_moment {written : Option Timestamp} (whole : ∀ t ∈ written, t.HasWholeMinutes) :
    nullable moment (.orNull (fun t => .string t.jsonText) written) = .accepted written :=
  nullable_orNull (fun _ => nofun) fun t present => moment_jsonText (whole t present)

theorem accepted_of_optional_nullable {α : Type} {entries : Fields Value} {key : Key}
    {read : Reader α} {found : Option α}
    (accepted : optional entries key none (nullable read) = .accepted found) :
    ∀ x ∈ found, ∃ value, read value = .accepted x := by
  rintro x rfl
  unfold optional at accepted
  split at accepted
  case h_2 => cases accepted
  case h_1 spelling value _ =>
  have kept := Checked.under_eq_accepted_iff.mp accepted
  unfold nullable at kept
  split at kept
  case h_1 => cases kept
  case h_2 =>
      refine ⟨value, ?_⟩
      cases held : read value with
      | accepted y =>
          rw [held] at kept
          cases kept
          rfl
      | rejected issues =>
          rw [held] at kept
          cases kept

end Schema.Reader

namespace Literal

theorem toJson_ne_null (literal : Literal) : literal.toJson ≠ .null := by
  cases literal with
  | scalar single => cases single <;> simp [toJson, Scalar.toJson]
  | list items => simp [toJson]

theorem reader_toJson (literal : Literal) : reader literal.toJson = .accepted literal := by
  cases literal with
  | scalar single => cases single <;> rfl
  | list items =>
      have each : ∀ item ∈ items, Scalar.reader item.toJson = .accepted item := by
        rintro (_ | _ | _) _ <;> rfl
      have apart : Scalar.ofJson? (.array (items.map Scalar.toJson)) = none := rfl
      rw [reader, toJson, Reader.list_map each, apart]

end Literal

namespace Condition

def items (condition : Condition) : List (Key × Value) := [
  (.plain "source", .string condition.source),
  (.plain "op", .string condition.sign),
  (.plain "value", .orNull Literal.toJson condition.literal)]

def toJson (condition : Condition) : Value := .object (named condition.items)

theorem reader_toJson (condition : Condition) :
    reader condition.toJson = .accepted condition := by
  have apart : condition.items.Pairwise fun item other => item.1.Apart other.1 := by
    simp [items, Key.Apart, Key.plain]
  have spelled := spelled_named condition.items
  have literal : Reader.nullable Literal.reader (.orNull Literal.toJson condition.literal) =
      .accepted condition.literal :=
    Reader.nullable_orNull Literal.toJson_ne_null fun literal _ => literal.reader_toJson
  rw [reader, toJson, Reader.record,
    Reader.optional_of_spelled apart spelled (.string condition.source) (by simp [items])
      (Reader.text_string _),
    Reader.optional_of_spelled apart spelled (.string condition.sign) (by simp [items])
      (Reader.text_string _),
    Reader.optional_of_spelled apart spelled _ (by simp [items]) literal]
  rfl

end Condition

namespace Effect

def items (effect : Effect) : List (Key × Value) :=
  (.plain "type", .string effect.kind.word) ::
    match effect with
    | scoreDelta score delta =>
        [(.plain "score", .orNull .string score), (.plain "delta", .orNull .number delta)]
    | addTag tag | removeTag tag => [(.plain "tag", .orNull .string tag)]

def toJson (effect : Effect) : Value := .object (named effect.items)

theorem kindOf?_word (kind : EffectKind) : kindOf? (.string kind.word) = some kind := by
  cases kind <;> rfl

theorem fieldsReader_named (effect : Effect) :
    fieldsReader (named effect.items) effect.kind = .accepted effect := by
  have apart : effect.items.Pairwise fun item other => item.1.Apart other.1 := by
    cases effect <;> simp [items, Key.Apart, Key.plain]
  have spelled := spelled_named effect.items
  cases effect with
  | scoreDelta score delta =>
      rw [kind, fieldsReader,
        Reader.optional_of_spelled apart spelled (.orNull .string score) (by simp [items])
          (Reader.nullable_text _),
        Reader.optional_of_spelled apart spelled (.orNull .number delta) (by simp [items])
          (Reader.nullable_number _)]
      rfl
  | addTag tag | removeTag tag =>
      rw [kind, fieldsReader,
        Reader.optional_of_spelled apart spelled (.orNull .string tag) (by simp [items])
          (Reader.nullable_text _)]
      rfl

theorem reader_toJson (effect : Effect) : reader effect.toJson = .accepted effect := by
  have tagged : Fields.get? (named effect.items) "type" = some (.string effect.kind.word) := by
    simp [named, items, Key.plain, Fields.get?]
  rw [toJson, reader]
  simp only [tagged, kindOf?_word, fieldsReader_named, Checked.under]

end Effect

namespace Scopes

def items (scopes : Scopes) : List (Key × Value) := [
  (.plain "channels", .strings scopes.channels),
  (.plain "segments", .strings scopes.segments),
  (⟨"valid_from", "validFrom"⟩, .orNull (fun t => .string t.jsonText) scopes.validFrom),
  (⟨"valid_to", "validTo"⟩, .orNull (fun t => .string t.jsonText) scopes.validTo)]

def toJson (scopes : Scopes) : Value := .object (named scopes.items)

theorem toJson_ne_null (scopes : Scopes) : scopes.toJson ≠ .null := by simp [toJson]

/-- The period has offsets of whole minutes. -/
structure HasWholeMinutes (scopes : Scopes) : Prop where
  validFrom : ∀ t ∈ scopes.validFrom, t.HasWholeMinutes
  validTo : ∀ t ∈ scopes.validTo, t.HasWholeMinutes

theorem reader_toJson {scopes : Scopes} (whole : scopes.HasWholeMinutes) :
    reader scopes.toJson = .accepted scopes := by
  have apart : scopes.items.Pairwise fun item other => item.1.Apart other.1 := by
    simp [items, Key.Apart, Key.plain]
  have spelled := spelled_named scopes.items
  rw [reader, toJson, Reader.record,
    Reader.optional_of_spelled apart spelled (.strings scopes.channels) (by simp [items])
      (Reader.list_strings _),
    Reader.optional_of_spelled apart spelled (.strings scopes.segments) (by simp [items])
      (Reader.list_strings _),
    Reader.optional_of_spelled apart spelled _ (by simp [items])
      (Reader.nullable_moment whole.validFrom),
    Reader.optional_of_spelled apart spelled _ (by simp [items])
      (Reader.nullable_moment whole.validTo)]
  rfl

theorem hasWholeMinutes_of_reader {value : Value} {scopes : Scopes}
    (accepted : reader value = .accepted scopes) : scopes.HasWholeMinutes := by
  cases value with
  | object entries =>
      obtain ⟨_, _, untilTo, ending, rfl⟩ := Checked.seq_eq_accepted_iff.mp accepted
      obtain ⟨_, _, untilFrom, beginning, rfl⟩ := Checked.seq_eq_accepted_iff.mp untilTo
      obtain ⟨_, _, channels, _, rfl⟩ := Checked.seq_eq_accepted_iff.mp untilFrom
      obtain ⟨_, _, rfl⟩ := Checked.map_eq_accepted_iff.mp channels
      have whole {found : Option Timestamp} {key : Key}
          (read : Reader.optional entries key none (Reader.nullable Reader.moment) =
            .accepted found) : ∀ t ∈ found, t.HasWholeMinutes := by
        intro t present
        obtain ⟨_, moment⟩ := Reader.accepted_of_optional_nullable read t present
        exact Timestamp.hasWholeMinutes_of_moment moment
      exact ⟨whole beginning, whole ending⟩
  | null | bool _ | number _ | string _ | array _ => cases accepted

end Scopes

namespace Authorship

def items (authorship : Authorship) : List (Key × Value) := [
  (.plain "owner", .orNull .string authorship.owner),
  (⟨"last_edited_by", "lastEditedBy"⟩, .orNull .string authorship.lastEditedBy),
  (.plain "notes", .orNull .string authorship.notes)]

def toJson (authorship : Authorship) : Value := .object (named authorship.items)

theorem toJson_ne_null (authorship : Authorship) : authorship.toJson ≠ .null := by simp [toJson]

theorem reader_toJson (authorship : Authorship) :
    reader authorship.toJson = .accepted authorship := by
  have apart : authorship.items.Pairwise fun item other => item.1.Apart other.1 := by
    simp [items, Key.Apart, Key.plain]
  have spelled := spelled_named authorship.items
  rw [reader, toJson, Reader.record,
    Reader.optional_of_spelled apart spelled (.orNull .string authorship.owner) (by simp [items])
      (Reader.nullable_text _),
    Reader.optional_of_spelled apart spelled (.orNull .string authorship.lastEditedBy)
      (by simp [items]) (Reader.nullable_text _),
    Reader.optional_of_spelled apart spelled (.orNull .string authorship.notes) (by simp [items])
      (Reader.nullable_text _)]
  rfl

end Authorship

namespace Rule

def items (rule : Rule) : List (Key × Value) := [
  (.plain "id", .string rule.id),
  (.plain "name", .string rule.name),
  (.plain "status", .string rule.status.word),
  (.plain "priority", .int rule.priority),
  (.plain "event", .string rule.event.word),
  (.plain "conditions", .array (rule.conditions.map Condition.toJson)),
  (.plain "effects", .array (rule.effects.map Effect.toJson)),
  (.plain "scopes", .orNull Scopes.toJson rule.scopes),
  (.plain "metadata", .orNull Authorship.toJson rule.metadata),
  (.plain "version", .int rule.version)]

def toJson (rule : Rule) : Value := .object (named rule.items)

theorem reader_toJson {rule : Rule} (whole : ∀ scopes ∈ rule.scopes, scopes.HasWholeMinutes) :
    reader rule.toJson = .accepted rule := by
  have apart : rule.items.Pairwise fun item other => item.1.Apart other.1 := by
    simp [items, Key.Apart, Key.plain]
  have spelled := spelled_named rule.items
  have conditions : Reader.list Condition.reader (.array (rule.conditions.map Condition.toJson)) =
      .accepted rule.conditions :=
    Reader.list_map fun condition _ => condition.reader_toJson
  have effects : Reader.list Effect.reader (.array (rule.effects.map Effect.toJson)) =
      .accepted rule.effects :=
    Reader.list_map fun effect _ => effect.reader_toJson
  have scopes : Reader.nullable Scopes.reader (.orNull Scopes.toJson rule.scopes) =
      .accepted rule.scopes :=
    Reader.nullable_orNull Scopes.toJson_ne_null fun scopes present =>
      scopes.reader_toJson (whole scopes present)
  have metadata : Reader.nullable Authorship.reader (.orNull Authorship.toJson rule.metadata) =
      .accepted rule.metadata :=
    Reader.nullable_orNull Authorship.toJson_ne_null fun authorship _ => authorship.reader_toJson
  rw [reader, toJson, Reader.record,
    Reader.required_of_spelled apart spelled (.string rule.id) (by simp [items])
      (Reader.text_string _),
    Reader.required_of_spelled apart spelled (.string rule.name) (by simp [items])
      (Reader.text_string _),
    Reader.optional_of_spelled apart spelled (.string rule.status.word) (by simp [items])
      (Reader.word_status _),
    Reader.optional_of_spelled apart spelled (.int rule.priority) (by simp [items])
      (Reader.integer_int _),
    Reader.required_of_spelled apart spelled (.string rule.event.word) (by simp [items])
      (Reader.reader_eventKind _),
    Reader.optional_of_spelled apart spelled _ (by simp [items]) conditions,
    Reader.optional_of_spelled apart spelled _ (by simp [items]) effects,
    Reader.optional_of_spelled apart spelled _ (by simp [items]) scopes,
    Reader.optional_of_spelled apart spelled _ (by simp [items]) metadata,
    Reader.optional_of_spelled apart spelled (.int rule.version) (by simp [items])
      (Reader.integer_int _)]
  rfl

theorem hasWholeMinutes_of_reader {value : Value} {rule : Rule}
    (accepted : reader value = .accepted rule) :
    ∀ scopes ∈ rule.scopes, scopes.HasWholeMinutes := by
  cases value with
  | object entries =>
      intro read present
      obtain ⟨_, accepted⟩ :=
        Reader.accepted_of_optional_nullable (fields_of_reader accepted).scopes read present
      exact Scopes.hasWholeMinutes_of_reader accepted
  | null | bool _ | number _ | string _ | array _ => cases accepted

end Rule

namespace Event

/-- Nothing in the payload is higher than so many levels. -/
def fits (levels : Nat) (event : Event) : Bool := Value.entriesHeight event.payload ≤ levels

def items (event : Event) : List (Key × Value) := [
  (.plain "type", .string event.kind.word),
  (.plain "payload", .finite (.object event.payload))]

/-- The value of an event, as long as its payload has room. -/
def dump (event : Event) : Except Fault Value :=
  if event.fits Simulation.dumpLevels then .ok (.object (named event.items)) else .error .tooDeep

theorem reader_named {event : Event}
    (finite : (Value.object event.payload).Everywhere Value.HasFinite) :
    reader (.object (named event.items)) = .accepted event := by
  have apart : event.items.Pairwise fun item other => item.1.Apart other.1 := by
    simp [items, Key.Apart, Key.plain]
  have spelled := spelled_named event.items
  have payload : Reader.mapping Reader.anything (.finite (.object event.payload)) =
      .accepted event.payload := by
    rw [Value.finite_of_hasFinite finite]
    exact Reader.entriesFrom_anything _
  rw [reader, Reader.record,
    Reader.required_of_spelled apart spelled (.string event.kind.word) (by simp [items])
      (Reader.reader_eventKind _),
    Reader.optional_of_spelled apart spelled _ (by simp [items]) payload]
  rfl

theorem finite_of_reader {value : Value} {event : Event}
    (accepted : reader value = .accepted event) (finite : value.Everywhere Value.HasFinite) :
    (Value.object event.payload).Everywhere Value.HasFinite := by
  cases value with
  | object entries =>
      obtain ⟨_, _, kind, payload, rfl⟩ := Checked.seq_eq_accepted_iff.mp accepted
      obtain ⟨_, -, rfl⟩ := Checked.map_eq_accepted_iff.mp kind
      exact Reader.everywhere_optional_mapping trivial payload finite
  | null | bool _ | number _ | string _ | array _ => cases accepted

end Event

/-! ## Profiles and products -/

namespace Profile

/-- The value of a profile, as long as its attributes and counters have room. -/
def dump (spelling : Spelling) (profile : Profile) : Except Fault Value :=
  if profile.fits Simulation.dumpLevels then .ok (profile.toJson spelling) else .error .tooDeep

theorem read_tags_lastUpdated {value : Value} {profile : Profile}
    (accepted : reader value = .accepted profile) :
    profile.tags.Nodup ∧ ∀ t ∈ profile.lastUpdated, t.HasWholeMinutes := by
  cases value with
  | object entries =>
      obtain ⟨_, _, untilUpdated, updated, rfl⟩ := Checked.seq_eq_accepted_iff.mp accepted
      obtain ⟨_, _, untilTags, kept, rfl⟩ := Checked.seq_eq_accepted_iff.mp untilUpdated
      obtain ⟨_, _, untilScores, _, rfl⟩ := Checked.seq_eq_accepted_iff.mp untilTags
      obtain ⟨_, _, untilCounters, _, rfl⟩ := Checked.seq_eq_accepted_iff.mp untilScores
      obtain ⟨_, _, customer, _, rfl⟩ := Checked.seq_eq_accepted_iff.mp untilCounters
      obtain ⟨_, _, rfl⟩ := Checked.map_eq_accepted_iff.mp customer
      obtain ⟨labels, _, rfl⟩ := Checked.map_eq_accepted_iff.mp kept
      refine ⟨nodup_eraseDups labels, fun t present => ?_⟩
      obtain ⟨_, moment⟩ := Reader.accepted_of_optional_nullable updated t present
      exact Timestamp.hasWholeMinutes_of_moment moment
  | null | bool _ | number _ | string _ | array _ => cases accepted

end Profile

namespace Product

def spelledEntries (product : Product) (spelling : Spelling) : Fields Value := [
  ("id", .string product.id),
  ("name", .string product.name),
  (spelling.pick "required_scores" "requiredScores", .ofNumbers product.requiredScores),
  (spelling.pick "weight_by_score" "weightByScore", .ofNumbers product.weightByScore),
  ("exclusions", .strings product.exclusions),
  ("active", .bool product.active)]

theorem spelled_spelledEntries (product : Product) (spelling : Spelling) :
    Spelled product.items (product.spelledEntries spelling) := by
  cases spelling <;> simp [Spelled, items, spelledEntries, Spelling.pick, Key.Names, Key.plain]

end Product

/-- What was accepted is read again from its value as what it is: under the names of fields, and
profiles and products also under the preferred names and under any choice between the two. -/
theorem accepted_rereads :
    (∀ value profile, value.Everywhere Value.HasFinite →
      Profile.reader value = .accepted profile → profile.fits Simulation.dumpLevels = true →
      ∃ snake camel, profile.dump .snake = .ok (.object snake) ∧
        profile.dump .camel = .ok (.object camel) ∧
        Profile.reader (.object snake) = .accepted profile ∧
        Profile.reader (.object camel) = .accepted profile ∧
        ∀ mixed, Mix snake camel mixed → Profile.reader (.object mixed) = .accepted profile) ∧
    (∀ value product, Product.reader value = .accepted product →
      ∃ snake camel, product.toJson .snake = .object snake ∧
        product.toJson .camel = .object camel ∧
        Product.reader (.object snake) = .accepted product ∧
        Product.reader (.object camel) = .accepted product ∧
        ∀ mixed, Mix snake camel mixed → Product.reader (.object mixed) = .accepted product) ∧
    (∀ value rule, Rule.reader value = .accepted rule →
      Rule.reader rule.toJson = .accepted rule) ∧
    (∀ value event, value.Everywhere Value.HasFinite →
      Event.reader value = .accepted event → event.fits Simulation.dumpLevels = true →
      ∃ dump, event.dump = .ok dump ∧ Event.reader dump = .accepted event) := by
  refine ⟨fun value profile finite accepted room => ?_, fun value product accepted => ?_,
    fun value rule accepted => ?_, fun value event finite accepted room => ?_⟩
  · obtain ⟨tags, whole⟩ := Profile.read_tags_lastUpdated accepted
    obtain ⟨staticData, behavioral⟩ := Profile.everywhere_of_reader trivial accepted finite
    have dumped (spelling : Spelling) :
        profile.dump spelling = .ok (.object (profile.exactEntries spelling)) := by
      rw [Profile.dump, if_pos room, Profile.toJson_of_hasFinite spelling staticData behavioral]
    have spelled := profile.spelled_exactEntries
    exact ⟨_, _, dumped .snake, dumped .camel,
      Profile.reader_of_spelled tags whole (spelled .snake),
      Profile.reader_of_spelled tags whole (spelled .camel),
      fun mixed mix =>
        Profile.reader_of_spelled tags whole ((spelled .snake).mix (spelled .camel) mix)⟩
  · have spelled := product.spelled_spelledEntries
    exact ⟨_, _, rfl, rfl, Product.reader_of_spelled (spelled .snake),
      Product.reader_of_spelled (spelled .camel),
      fun mixed mix => Product.reader_of_spelled ((spelled .snake).mix (spelled .camel) mix)⟩
  · exact Rule.reader_toJson (Rule.hasWholeMinutes_of_reader accepted)
  · exact ⟨_, if_pos room, Event.reader_named (Event.finite_of_reader accepted finite)⟩

namespace Rereading

/-! ### Records in lenient notation -/

theorem isDate_epoch : Calendar.IsDate 1970 1 1 := by decide

def epoch : Timestamp := .midnight ⟨1970, 1, 1, isDate_epoch⟩ (some Offset.universal)

def profileEntries : Fields Value := [
  ("customerId", .string "C1"),
  ("static_data", .object [("rates", .array [.number (.real (.ofInt 2)), .null])]),
  ("scores", .object [("vip", .string "5.0"), ("churn", .bool true)]),
  ("tags", .strings ["new", "new"]),
  ("lastUpdated", .int 0)]

def profile : Profile :=
  { customerId := "C1"
    staticData := [("rates", .array [.number (.real (.ofInt 2)), .null])]
    scores := [("vip", .int 5), ("churn", .int 1)]
    tags := ["new"]
    lastUpdated := some epoch }

theorem reader_profileEntries : Profile.reader (.object profileEntries) = .accepted profile := by
  have scores : Reader.optional profileEntries (.plain "scores") [] (Reader.mapping Reader.number) =
      .accepted profile.scores := by
    decide +kernel
  have updated : Reader.optional profileEntries ⟨"last_updated", "lastUpdated"⟩ none
      (Reader.nullable Reader.moment) = .accepted (some epoch) := by
    decide +kernel
  rw [Profile.reader, Reader.record, Profile.ofEntries, scores, updated]
  rfl

def productEntries : Fields Value := [
  ("id", .string "p1"),
  ("name", .string "Card"),
  ("weightByScore", .object [("vip", .string " 7 ")]),
  ("active", .string "Off")]

def product : Product :=
  { id := "p1", name := "Card", weightByScore := [("vip", .int 7)], active := false }

theorem reader_productEntries : Product.reader (.object productEntries) = .accepted product := by
  have weights : Reader.optional productEntries ⟨"weight_by_score", "weightByScore"⟩ []
      (Reader.mapping Reader.number) = .accepted product.weightByScore := by
    decide +kernel
  rw [Product.reader, Reader.record, weights]
  rfl

def scopesEntries : Fields Value := [("validFrom", .string "0"), ("valid_to", .null)]

def ruleEntries : Fields Value := [
  ("id", .string "r1"),
  ("name", .string "Welcome"),
  ("priority", .string "70"),
  ("event", .string "LOGIN"),
  ("conditions", .array [.object [("value", .array [.bool true, .int 1, .string "1"])]]),
  ("effects", .array [
    .object [("type", .string "scoreDelta"), ("delta", .bool true)],
    .object [("type", .string "addTag"), ("tag", .string "vip")]]),
  ("scopes", .object scopesEntries)]

def rule : Rule :=
  { id := "r1"
    name := "Welcome"
    priority := 70
    event := .login
    conditions := [{ literal := some (.list [.truth true, .number (.int 1), .text "1"]) }]
    effects := [.scoreDelta none (some (.int 1)), .addTag (some "vip")]
    scopes := some { validFrom := some epoch } }

theorem reader_ruleEntries : Rule.reader (.object ruleEntries) = .accepted rule := by
  have priority : Reader.optional ruleEntries (.plain "priority") 50 Reader.integer =
      .accepted 70 := by
    decide +kernel
  have validFrom : Reader.optional scopesEntries ⟨"valid_from", "validFrom"⟩ none
      (Reader.nullable Reader.moment) = .accepted (some epoch) := by
    decide +kernel
  have scopes : Scopes.reader (.object scopesEntries) =
      .accepted { validFrom := some epoch } := by
    rw [Scopes.reader, Reader.record, validFrom]
    rfl
  have optional : Reader.optional ruleEntries (.plain "scopes") none
      (Reader.nullable Scopes.reader) = .accepted rule.scopes := by
    change ((Scopes.reader (.object scopesEntries)).map some).under "scopes" = _
    rw [scopes]
    rfl
  rw [Rule.reader, Reader.record, priority, optional]
  rfl

def eventEntries : Fields Value := [
  ("payload", .object [("amounts", .array [.int 3, .null])]), ("type", .string "LOGIN")]

def event : Event := ⟨.login, [("amounts", .array [.int 3, .null])]⟩

theorem reader_eventEntries : Event.reader (.object eventEntries) = .accepted event := rfl

end Rereading

open Rereading in
/-- Numbers and points in time are written in other ways than they were read, and read alike. -/
theorem accepted_rereads_lenient :
    Profile.reader (.object profileEntries) = .accepted profile ∧
    (∃ snake camel, profile.dump .snake = .ok (.object snake) ∧
      profile.dump .camel = .ok (.object camel) ∧
      Profile.reader (.object snake) = .accepted profile ∧
      Profile.reader (.object camel) = .accepted profile ∧
      ∀ mixed, Mix snake camel mixed → Profile.reader (.object mixed) = .accepted profile) ∧
    Product.reader (.object productEntries) = .accepted product ∧
    (∃ snake camel, product.toJson .snake = .object snake ∧
      product.toJson .camel = .object camel ∧
      Product.reader (.object snake) = .accepted product ∧
      Product.reader (.object camel) = .accepted product ∧
      ∀ mixed, Mix snake camel mixed → Product.reader (.object mixed) = .accepted product) ∧
    Rule.reader (.object ruleEntries) = .accepted rule ∧
    Rule.reader rule.toJson = .accepted rule ∧
    Event.reader (.object eventEntries) = .accepted event ∧
    ∃ dump, event.dump = .ok dump ∧ Event.reader dump = .accepted event := by
  have profileFinite : (Value.object profileEntries).Everywhere Value.HasFinite := by
    have rate : (Binary64.ofInt 2).isFinite = true := by decide +kernel
    simp [profileEntries, Value.HasFinite, Value.int, Value.strings, rate]
  have eventFinite : (Value.object eventEntries).Everywhere Value.HasFinite := by
    simp [eventEntries, Value.HasFinite, Value.int]
  obtain ⟨profiles, products, rules, events⟩ := accepted_rereads
  exact ⟨reader_profileEntries,
    profiles _ _ profileFinite reader_profileEntries (by decide),
    reader_productEntries, products _ _ reader_productEntries,
    reader_ruleEntries, rules _ _ reader_ruleEntries,
    reader_eventEntries, events _ _ eventFinite reader_eventEntries (by decide)⟩

namespace Rereading

/-- An attribute of 256 levels. -/
def highAttributes : Fields Value := [("lone", Profile.tower 255)]

def highProfile : Fields Value :=
  [("customerId", .string "C1"), ("staticData", .object highAttributes)]

def highEvent : Fields Value := [("type", .string "LOGIN"), ("payload", .object highAttributes)]

end Rereading

open Rereading in
/-- A profile and an event that are accepted are too high for a dump. -/
theorem accepted_not_dumped :
    (Value.object highProfile).Everywhere Value.HasFinite ∧
    Profile.reader (.object highProfile) = .accepted (.lone (Profile.tower 255)) ∧
    (Profile.lone (Profile.tower 255)).dump .snake = .error .tooDeep ∧
    (Profile.lone (Profile.tower 255)).dump .camel = .error .tooDeep ∧
    (Value.object highEvent).Everywhere Value.HasFinite ∧
    Event.reader (.object highEvent) = .accepted ⟨.login, highAttributes⟩ ∧
    (Event.mk .login highAttributes).dump = .error .tooDeep := by
  have attributes : (Value.object highAttributes).Everywhere Value.HasFinite := by
    simpa [highAttributes, Value.HasFinite] using
      Profile.everywhere_tower (fun _ => trivial) 255
  have high (spelling : Spelling) :
      (Profile.lone (Profile.tower 255)).dump spelling = .error .tooDeep := by
    refine if_neg ?_
    simp [Profile.fits, Profile.lone, Value.entriesHeight, Profile.height_tower,
      Simulation.dumpLevels]
  refine ⟨?_, rfl, high .snake, high .camel, ?_, rfl, if_neg ?_⟩
  · simpa [highProfile, Value.HasFinite] using attributes
  · simpa [highEvent, Value.HasFinite] using attributes
  · simp [Event.fits, highAttributes, Value.entriesHeight, Profile.height_tower,
      Simulation.dumpLevels]

end NextOffer
