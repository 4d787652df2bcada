import Mathlib.Data.List.Induction
import NextOffer.Proofs.Loading

/-! # Numbers and positions of records

A message about a record of a file gives its number, counted from zero among the records, where
documentation does not count. So the number of a record is its position in the file less the
documentation before it, and it is the position exactly when there is none before it.
-/

namespace NextOffer.Loading

open Json Schema

variable {α : Type} {model : String} {read : Reader α} {items : List Value} {position : Nat}

/-- The records before a position of a file are counted: the number of a record there. -/
def number (items : List Value) (position : Nat) : Nat := (records (items.take position)).length

/-- How many entries before a position of a file are documentation. -/
def documentation (items : List Value) (position : Nat) : Nat :=
  (items.take position).countP fun item => Documents item

theorem number_add_documentation (inside : position ≤ items.length) :
    number items position + documentation items position = position := by
  have counted := List.length_eq_countP_add_countP (fun item => decide (Documents item))
    (l := items.take position)
  rw [List.length_take_of_le inside] at counted
  rw [number, records, documentation, ← List.countP_eq_length_filter, Nat.add_comm]
  simpa using counted.symm

/-- A number is the position exactly when no documentation stands before it. -/
theorem number_eq_iff (inside : position ≤ items.length) :
    number items position = position ↔ ∀ item ∈ items.take position, ¬ Documents item := by
  have sum := number_add_documentation inside
  have none : documentation items position = 0 ↔
      ∀ item ∈ items.take position, ¬ Documents item := by
    simp [documentation, List.countP_eq_zero]
  rw [← none]
  omega

theorem number_mono {other : Nat} (le : position ≤ other) :
    number items position ≤ number items other :=
  ((List.take_sublist_take_left le).filter _).length_le

/-- The records of a file, each with its position. -/
def placed (items : List Value) : List (Value × Nat) :=
  items.zipIdx.filter fun entry => ¬ Documents entry.1

theorem mem_placed_iff {record : Value} :
    (record, position) ∈ placed items ↔ items[position]? = some record ∧ ¬ Documents record := by
  simp [placed, List.mk_mem_zipIdx_iff_getElem?]

/-- Records are numbered in the order of their positions. -/
theorem zipIdx_records (items : List Value) :
    (records items).zipIdx = (placed items).map fun entry => (entry.1, number items entry.2) := by
  induction items using List.reverseRecOn with
  | nil => rfl
  | append_singleton items last ih =>
      have before : ∀ entry ∈ placed items,
          number (items ++ [last]) entry.2 = number items entry.2 := by
        intro entry member
        obtain ⟨here, -⟩ := mem_placed_iff.mp member
        have inside := (List.getElem?_eq_some_iff.mp here).1
        rw [number, number, List.take_append_of_le_length (by omega)]
      have here : number (items ++ [last]) items.length = (records items).length := by
        rw [number, List.take_left]
      have front : (placed items).map (fun entry => (entry.1, number (items ++ [last]) entry.2)) =
          (records items).zipIdx := by
        rw [ih]
        exact List.map_congr_left fun entry member => by rw [before entry member]
      have split : placed (items ++ [last]) =
          placed items ++ [(last, items.length)].filter fun entry => ¬ Documents entry.1 := by
        rw [placed, List.zipIdx_append, List.filter_append]
        simp [placed]
      rw [split, List.map_append, front, records, List.filter_append, List.zipIdx_append]
      by_cases documents : Documents last <;> simp [records, documents, here]

/-- The records of a file that are not valid, each with its position and what is wrong with it. -/
def offences (model : String) (read : Reader α) (items : List Value) : List (Nat × Report) :=
  (placed items).filterMap (failure? model read)

theorem failures_records (model : String) (read : Reader α) (items : List Value) :
    failures model read (records items) =
      (offences model read items).map fun offence => (number items offence.1, offence.2) := by
  rw [failures, zipIdx_records, offences, List.filterMap_map, List.map_filterMap]
  refine List.filterMap_congr fun entry _ => ?_
  simp only [failure?, Function.comp_apply]
  split <;> rfl

theorem getElem?_of_valid {records : List Value} {values : List α} {index : Nat} {value : α}
    (valid : Valid read records values) (found : values[index]? = some value) :
    ∃ record, records[index]? = some record ∧ read record = .accepted value := by
  induction valid generalizing index with
  | nil => cases found
  | cons accepted _ ih =>
      cases index with
      | zero =>
          cases found
          exact ⟨_, rfl, accepted⟩
      | succ index => exact ih found

theorem position_lt_of_mem_offences {offence : Nat × Report}
    (member : offence ∈ offences model read items) : offence.1 < items.length := by
  obtain ⟨⟨record, position⟩, there, failed⟩ := List.mem_filterMap.mp member
  obtain ⟨here, -⟩ := mem_placed_iff.mp there
  have same : position = offence.1 := by
    unfold failure? at failed
    split at failed
    · cases failed
    · cases failed
      rfl
  exact same ▸ (List.getElem?_eq_some_iff.mp here).1

theorem failures_eq_offences_iff :
    failures model read (records items) = offences model read items ↔
      ∀ offence ∈ offences model read items, ∀ item ∈ items.take offence.1, ¬ Documents item := by
  rw [failures_records]
  nth_rewrite 2 [← List.map_id (offences model read items)]
  rw [List.map_inj_left]
  refine forall₂_congr fun offence member => ?_
  rw [← number_eq_iff (Nat.le_of_lt (position_lt_of_mem_offences member)), id, Prod.ext_iff]
  simp

/-- The record at a position has an id. -/
def HasId (read : Reader α) (naming : Naming α) (items : List Value) (position : Nat)
    (id : String) : Prop :=
  ∃ record value, items[position]? = some record ∧ ¬ Documents record ∧
    read record = .accepted value ∧ naming.id value = id

theorem hasId_of_getElem? {naming : Naming α} {values : List α} {index : Nat} {id : String}
    (valid : Valid read (records items) values)
    (here : (values.map naming.id)[index]? = some id) :
    ∃ position, HasId read naming items position id ∧ number items position = index := by
  rw [List.getElem?_map, Option.map_eq_some_iff] at here
  obtain ⟨value, found, named⟩ := here
  obtain ⟨record, numbered, accepted⟩ := getElem?_of_valid valid found
  have member := List.mk_mem_zipIdx_iff_getElem?.mpr numbered
  rw [zipIdx_records, List.mem_map] at member
  obtain ⟨⟨_, position⟩, there, same⟩ := member
  cases same
  obtain ⟨stands, kind⟩ := mem_placed_iff.mp there
  exact ⟨position, ⟨_, value, stands, kind, accepted, named⟩, rfl⟩

/-- The record at a position has an id that a record before it has. -/
structure Repeats (read : Reader α) (naming : Naming α) (items : List Value) (position : Nat)
    (id : String) : Prop where
  here : HasId read naming items position id
  earlier : ∃ before < position, HasId read naming items before id

theorem exists_repeats {naming : Naming α} {values : List α} {index : Nat} {id : String}
    (valid : Valid read (records items) values)
    (repeated : FirstRepeat (values.map naming.id) index id) :
    ∃ position, Repeats read naming items position id ∧ number items position = index := by
  obtain ⟨position, here, numbered⟩ := hasId_of_getElem? valid repeated.here
  obtain ⟨other, earlier⟩ := List.mem_iff_getElem?.mp repeated.earlier
  rw [List.getElem?_take] at earlier
  split at earlier
  case isFalse => cases earlier
  case isTrue less =>
      obtain ⟨before, there, numbered'⟩ := hasId_of_getElem? valid earlier
      refine ⟨position, ⟨here, before, Nat.lt_of_not_le fun le => ?_, there⟩, numbered⟩
      have mono : number items position ≤ number items before := number_mono le
      omega

/-- How a load that fails tells of the records of a file. -/
structure TellsNumbers (model : String) (read : Reader α) (naming? : Option (Naming α))
    (path : FilePath) (items : List Value) (outcome : Except LoadFault (List α)) : Prop where
  /-- Records that are not valid are listed in their order, each with its number. The list gives
      their positions exactly when no documentation stands before one of them. -/
  failures : offences model read items ≠ [] →
    ∃ fault told, outcome = .error fault ∧ fault.message = listing model path.name told ∧
      told = (offences model read items).map (fun offence =>
        (number items offence.1, offence.2)) ∧
      (told = offences model read items ↔
        ∀ offence ∈ offences model read items, ∀ item ∈ items.take offence.1, ¬ Documents item)
  /-- A record whose id is there already is told by its number. -/
  repeats : offences model read items = [] → ∀ fault, outcome = .error fault →
    ∃ naming ∈ naming?, ∃ position index id, Repeats read naming items position id ∧
      index = number items position ∧
      fault.message = s!"Duplicate {naming.noun} id '{id}' at index {index} in {path.name}."
  /-- A number is the position exactly when no documentation stands before the record, and
      otherwise it falls short by what stands there. -/
  exact : ∀ position ≤ items.length,
    number items position + documentation items position = position ∧
      (number items position = position ↔ ∀ item ∈ items.take position, ¬ Documents item)

theorem tellsNumbers_of_exact {naming? : Option (Naming α)} {path : FilePath}
    {outcome : Except LoadFault (List α)} (exact : Exact model read naming? path items outcome) :
    TellsNumbers model read naming? path items outcome where
  failures := by
    intro invalid
    have some : failures model read (records items) ≠ [] := by
      simpa [failures_records] using invalid
    have refused := (exact.refuses _).mpr (.inl ⟨some, rfl⟩)
    exact ⟨_, _, refused, exact.message _ refused some, failures_records model read items,
      failures_eq_offences_iff⟩
  repeats := by
    intro valid fault refused
    have none : failures model read (records items) = [] := by
      rw [failures_records, valid, List.map_nil]
    obtain ⟨naming, named, values, index, id, valid, repeated, told⟩ :=
      exact.repetition fault refused none
    obtain ⟨position, repeats, numbered⟩ := exists_repeats valid repeated
    exact ⟨naming, named, position, index, id, repeats, numbered.symm, told⟩
  exact position inside := ⟨number_add_documentation inside, number_eq_iff inside⟩

theorem events_eq (path : FilePath) (content : Option String) :
    events path content = (do
      let values ← validate "Event" Event.reader path (← readArray path content)
      requireApart none path values
      return values) := by
  rw [events]
  cases readArray path content with
  | error fault => rfl
  | ok found => exact (bind_pure (validate "Event" Event.reader path found)).symm

/-- Messages about the records of a file give their numbers, which are their positions exactly
    where no documentation stands before them. -/
theorem load_tells_numbers (path : FilePath) (text : String) (items : List Value)
    (held : readValue path (some text) = .ok (.array items)) :
    TellsNumbers "Rule" Rule.reader (some ⟨"rule", Rule.id⟩) path items
      (rules path (some text)) ∧
    TellsNumbers "Product" Product.reader (some ⟨"product", Product.id⟩) path items
      (products path (some text)) ∧
    TellsNumbers "Event" Event.reader none path items (events path (some text)) :=
  ⟨tellsNumbers_of_exact (exact_of_steps held rfl),
    tellsNumbers_of_exact (exact_of_steps held rfl),
    tellsNumbers_of_exact (exact_of_steps held (events_eq path (some text)))⟩

def rulesPath : FilePath := FilePath.ofText "rules.json"

/-- Documentation, and a rule for events of an unknown kind. -/
def onboarding : List Value := [
  .object [("_comment", .string "Onboarding rules")],
  .object [("id", .string "r1"), ("name", .string "Welcome"), ("event", .string "PAYDAY")]]

theorem readValue_onboarding :
    readValue rulesPath (some (Form.indented.text (.array onboarding))) =
      .ok (.array onboarding) := by
  have exact : (Value.array onboarding).Everywhere Value.IsExact := by
    simp [onboarding, Value.IsExact, Value.HasDistinctNames, Value.HasShortInteger,
      Value.HasNoReal, Fields.names]
  exact readValue_text rulesPath Form.regular_indented exact.legible (by decide)

theorem load_tells_numbers_onboarding :
    readValue rulesPath (some (Form.indented.text (.array onboarding))) =
      .ok (.array onboarding) ∧
    number onboarding 1 = 0 ∧ documentation onboarding 1 = 1 ∧
    TellsNumbers "Rule" Rule.reader (some ⟨"rule", Rule.id⟩) rulesPath onboarding
      (rules rulesPath (some (Form.indented.text (.array onboarding)))) :=
  ⟨readValue_onboarding, rfl, rfl, (load_tells_numbers _ _ _ readValue_onboarding).1⟩

/-- The rule at position 1 is told as number 0. -/
theorem rules_onboarding_misplaced :
    readValue rulesPath (some (Form.indented.text (.array onboarding))) =
      .ok (.array onboarding) ∧
    (offences "Rule" Rule.reader onboarding).map Prod.fst = [1] ∧
    ∃ fault, rules rulesPath (some (Form.indented.text (.array onboarding))) = .error fault ∧
      fault.message = "1 Rule record(s) failed validation in rules.json:\n" ++
        "  #0: 1 validation error for Rule\nevent\n  Input should be " ++
        "'LOGIN', 'SALARY_CREDIT', 'TRANSFER_POSTED' or 'MARKETPLACE_VIEW' [type=enum]" := by
  have loaded : Exact "Rule" Rule.reader (some ⟨"rule", Rule.id⟩) rulesPath onboarding
      (rules rulesPath (some (Form.indented.text (.array onboarding)))) :=
    exact_of_steps readValue_onboarding rfl
  have failed : failures "Rule" Rule.reader (records onboarding) ≠ [] := by decide
  have refused := (loaded.refuses _).mpr (.inl ⟨failed, rfl⟩)
  exact ⟨readValue_onboarding, rfl, _, refused, by decide +kernel⟩

end NextOffer.Loading
