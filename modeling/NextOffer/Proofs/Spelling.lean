import NextOffer.Proofs.Calendar
import NextOffer.Proofs.WellFormed
import NextOffer.Report.Json

/-! # Records under either of their names

A field of a record stands under one of two names. Entries that hold the value of each field once,
under whichever of its names, are read alike: the field is found, and what was written for it is
read back.
-/

namespace NextOffer

/-- What may be missing, written as null when it is. -/
def Json.Value.orNull {α : Type} (write : α → Value) : Option α → Value
  | none => .null
  | some x => write x

namespace Schema

namespace Key

/-- The field may stand under this name. -/
def Names (key : Key) (name : String) : Prop := name = key.name ∨ name = key.preferred

/-- The fields have no name in common. -/
def Apart (key other : Key) : Prop :=
  (key.name ≠ other.name ∧ key.name ≠ other.preferred) ∧
    key.preferred ≠ other.name ∧ key.preferred ≠ other.preferred

instance (key other : Key) : Decidable (Apart key other) :=
  inferInstanceAs (Decidable (_ ∧ _ ∧ _))

theorem Apart.ne {key other : Key} (apart : Apart key other) {name name' : String}
    (named : key.Names name) (named' : other.Names name') : name ≠ name' := by
  obtain ⟨⟨first, second⟩, third, fourth⟩ := apart
  rcases named with rfl | rfl <;> rcases named' with rfl | rfl <;> assumption

end Key

variable {items : List (Key × Json.Value)} {entries : Fields Json.Value} {key : Key}
  {value : Json.Value}

/-- Entries that hold the values of fields in order, each under a name of its field. -/
def Spelled (items : List (Key × Json.Value)) (entries : Fields Json.Value) : Prop :=
  List.Forall₂ (fun item entry => item.1.Names entry.1 ∧ entry.2 = item.2) items entries

theorem get?_of_apart (spelled : Spelled items entries)
    (apart : ∀ item ∈ items, key.Apart item.1) {name : String} (named : key.Names name) :
    entries.get? name = none := by
  induction spelled with
  | nil => rfl
  | cons here _ ih =>
      obtain ⟨other, others⟩ := List.forall_mem_cons.mp apart
      rw [Fields.get?, if_neg (other.ne named here.1).symm, ih others]

theorem find?_of_spelled (apart : items.Pairwise fun item other => item.1.Apart other.1)
    (spelled : Spelled items entries) (member : (key, value) ∈ items) :
    ∃ spelling, key.find? entries = some (spelling, value) := by
  induction spelled with
  | nil => cases member
  | @cons item entry _ rest here later ih =>
      obtain ⟨first, others⟩ := List.pairwise_cons.mp apart
      obtain ⟨name, found⟩ := entry
      obtain ⟨named, rfl⟩ := here
      rcases List.mem_cons.mp member with rfl | member
      · have behind : Fields.get? rest key.preferred = none :=
          get?_of_apart later first (.inr rfl)
        refine ⟨name, ?_⟩
        by_cases preferred : name = key.preferred
        · simp [Key.find?, Fields.get?, preferred]
        · obtain rfl : name = key.name := named.resolve_right preferred
          simp [Key.find?, Fields.get?, preferred, behind]
      · obtain ⟨spelling, located⟩ := ih others member
        have other := first _ member
        refine ⟨spelling, ?_⟩
        rw [Key.find?, Fields.get?, if_neg (other.ne named (.inr rfl)), Fields.get?,
          if_neg (other.ne named (.inl rfl)), ← Key.find?, located]

/-- The fields under their own names. -/
def named (items : List (Key × Json.Value)) : Fields Json.Value :=
  items.map fun item => (item.1.name, item.2)

theorem spelled_named (items : List (Key × Json.Value)) : Spelled items (named items) := by
  rw [Spelled, named, List.forall₂_map_right_iff, List.forall₂_same]
  exact fun _ _ => ⟨.inl rfl, rfl⟩

/-- The entries of one table or of another, one by one. -/
inductive Mix : Fields Json.Value → Fields Json.Value → Fields Json.Value → Prop where
  | nil : Mix [] [] []
  | first {a b : String × Json.Value} {rest others mixed : Fields Json.Value}
      (later : Mix rest others mixed) : Mix (a :: rest) (b :: others) (a :: mixed)
  | second {a b : String × Json.Value} {rest others mixed : Fields Json.Value}
      (later : Mix rest others mixed) : Mix (a :: rest) (b :: others) (b :: mixed)

theorem Spelled.mix {first second mixed : Fields Json.Value} (spelled : Spelled items first)
    (spelled' : Spelled items second) (mix : Mix first second mixed) : Spelled items mixed := by
  induction mix generalizing items with
  | nil => exact spelled
  | first _ ih =>
      obtain ⟨item, items, here, later, rfl⟩ := List.forall₂_cons_right_iff.mp spelled
      exact .cons here (ih later (List.forall₂_cons.mp spelled').2)
  | second _ ih =>
      obtain ⟨item, items, here, later, rfl⟩ := List.forall₂_cons_right_iff.mp spelled'
      exact .cons here (ih (List.forall₂_cons.mp spelled).2 later)

namespace Reader

variable {α : Type} {read : Reader α} {result default : α}

theorem required_of_spelled (apart : items.Pairwise fun item other => item.1.Apart other.1)
    (spelled : Spelled items entries) (value : Json.Value) (member : (key, value) ∈ items)
    (accepted : read value = .accepted result) :
    required entries key read = .accepted result := by
  obtain ⟨spelling, found⟩ := find?_of_spelled apart spelled member
  simp [required, found, accepted, Checked.under]

theorem optional_of_spelled (apart : items.Pairwise fun item other => item.1.Apart other.1)
    (spelled : Spelled items entries) (value : Json.Value) (member : (key, value) ∈ items)
    (accepted : read value = .accepted result) :
    optional entries key default read = .accepted result := by
  obtain ⟨spelling, found⟩ := find?_of_spelled apart spelled member
  simp [optional, found, accepted, Checked.under]

theorem text_string (written : String) : text (.string written) = .accepted written := rfl

theorem mapping_number (scores : Fields Number) :
    mapping number (.ofNumbers scores) = .accepted scores := by
  rw [Json.Value.ofNumbers, mapping, Fields.mapValues]
  induction scores with
  | nil => rfl
  | cons entry rest ih =>
      rw [List.map_cons, entriesFrom, ih]
      rfl

theorem list_map {write : α → Json.Value} {written : List α}
    (each : ∀ item ∈ written, read (write item) = .accepted item) :
    list read (.array (written.map write)) = .accepted written := by
  rw [list]
  generalize 0 = index
  induction written generalizing index with
  | nil => rfl
  | cons first rest ih =>
      obtain ⟨here, later⟩ := List.forall_mem_cons.mp each
      rw [List.map_cons, listFrom, ih later, here]
      rfl

theorem list_strings (texts : List String) :
    list text (.strings texts) = .accepted texts :=
  list_map fun _ _ => rfl

theorem nullable_orNull {write : α → Json.Value} {written : Option α}
    (apart : ∀ x, write x ≠ .null) (each : ∀ x ∈ written, read (write x) = .accepted x) :
    nullable read (.orNull write written) = .accepted written := by
  cases written with
  | none => rfl
  | some x =>
      have held := each x rfl
      rw [Json.Value.orNull, nullable, held]
      · rfl
      · exact apart x

theorem moment_jsonText {t : Timestamp} (whole : t.HasWholeMinutes) :
    moment (.string t.jsonText) = .accepted t := by
  rw [moment, Timestamp.ofDataText_jsonText whole, ofMoment]

end Reader

end Schema

open Json Schema

namespace Profile

/-- The value of the time of the last evaluation. -/
def updatedValue (lastUpdated : Option Timestamp) : Value :=
  match lastUpdated with
  | none => .null
  | some t => .string t.jsonText

theorem accepted_updatedValue {lastUpdated : Option Timestamp}
    (whole : ∀ t ∈ lastUpdated, t.HasWholeMinutes) :
    Reader.nullable Reader.moment (updatedValue lastUpdated) = .accepted lastUpdated := by
  cases lastUpdated with
  | none => rfl
  | some t =>
      rw [updatedValue, Reader.nullable, Reader.moment_jsonText (whole t rfl)]
      · rfl
      · rintro ⟨⟩

/-- The fields of a profile with their values, when nothing in it becomes null. -/
def items (profile : Profile) : List (Key × Value) := [
  (⟨"customer_id", "customerId"⟩, .string profile.customerId),
  (⟨"static_data", "staticData"⟩, .object profile.staticData),
  (.plain "behavioral", .object profile.behavioral),
  (.plain "scores", .ofNumbers profile.scores),
  (.plain "tags", .strings profile.tags),
  (⟨"last_updated", "lastUpdated"⟩, updatedValue profile.lastUpdated)]

/-- Each field is found under either of its names and read as it was. -/
theorem reader_of_spelled {profile : Profile} {entries : Fields Value} (tags : profile.tags.Nodup)
    (whole : ∀ t ∈ profile.lastUpdated, t.HasWholeMinutes)
    (spelled : Spelled profile.items entries) :
    reader (.object entries) = .accepted profile := by
  have apart : profile.items.Pairwise fun item other => item.1.Apart other.1 := by
    simp [items, Key.Apart, Key.plain]
  have anything (entries : Fields Value) :
      Reader.mapping Reader.anything (.object entries) = .accepted entries :=
    Reader.entriesFrom_anything entries
  rw [reader, Reader.record, ofEntries,
    Reader.required_of_spelled apart spelled (.string profile.customerId) (by simp [items])
      (Reader.text_string _),
    Reader.optional_of_spelled apart spelled (.object profile.staticData) (by simp [items])
      (anything _),
    Reader.optional_of_spelled apart spelled (.object profile.behavioral) (by simp [items])
      (anything _),
    Reader.optional_of_spelled apart spelled (.ofNumbers profile.scores) (by simp [items])
      (Reader.mapping_number _),
    Reader.optional_of_spelled apart spelled (.strings profile.tags) (by simp [items])
      (Reader.list_strings _),
    Reader.optional_of_spelled apart spelled (updatedValue profile.lastUpdated) (by simp [items])
      (accepted_updatedValue whole)]
  change Checked.accepted { profile with tags := profile.tags.eraseDups } = .accepted profile
  rw [eraseDups_of_nodup tags]

end Profile

namespace Product

/-- The fields of a product with their values. -/
def items (product : Product) : List (Key × Value) := [
  (.plain "id", .string product.id),
  (.plain "name", .string product.name),
  (⟨"required_scores", "requiredScores"⟩, .ofNumbers product.requiredScores),
  (⟨"weight_by_score", "weightByScore"⟩, .ofNumbers product.weightByScore),
  (.plain "exclusions", .strings product.exclusions),
  (.plain "active", .bool product.active)]

theorem reader_of_spelled {product : Product} {entries : Fields Value}
    (spelled : Spelled product.items entries) :
    reader (.object entries) = .accepted product := by
  have apart : product.items.Pairwise fun item other => item.1.Apart other.1 := by
    simp [items, Key.Apart, Key.plain]
  have active : Reader.truth (.bool product.active) = .accepted product.active := rfl
  rw [reader, Reader.record,
    Reader.required_of_spelled apart spelled (.string product.id) (by simp [items])
      (Reader.text_string _),
    Reader.required_of_spelled apart spelled (.string product.name) (by simp [items])
      (Reader.text_string _),
    Reader.optional_of_spelled apart spelled (.ofNumbers product.requiredScores)
      (by simp [items]) (Reader.mapping_number _),
    Reader.optional_of_spelled apart spelled (.ofNumbers product.weightByScore)
      (by simp [items]) (Reader.mapping_number _),
    Reader.optional_of_spelled apart spelled (.strings product.exclusions) (by simp [items])
      (Reader.list_strings _),
    Reader.optional_of_spelled apart spelled (.bool product.active) (by simp [items]) active]
  rfl

end Product

end NextOffer
