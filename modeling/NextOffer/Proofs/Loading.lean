import NextOffer.Proofs.Json.Texts

/-! # Loading is all or nothing

The records of a file are its entries without documentation. They are returned, in their
order, when all of them are valid and no id is there twice. Otherwise there is one failure: it
lists the records that are not valid, or, when there are none, names the first id that repeats
another. Documentation in a file changes nothing of this.
-/

namespace NextOffer

namespace Loading

open Json Schema

/-- An entry for documentation: an object with at least one name, and names of comments only. -/
def Documents : Value → Prop
  | .object entries =>
      entries ≠ [] ∧ ∀ name ∈ Fields.names entries, "_comment".toList <+: name.toList
  | _ => False

theorem isComment_iff {value : Value} : isComment value = true ↔ Documents value := by
  cases value with
  | object entries => simp [isComment, Documents, isCommentName, Fields.names]
  | null | bool _ | number _ | string _ | array _ => simp [isComment, Documents]

instance : DecidablePred Documents := fun _ => decidable_of_iff _ isComment_iff

/-- The entries of an array that are no documentation, in their order. -/
def records (items : List Value) : List Value := items.filter fun item => ¬ Documents item

theorem readArray_eq_records {path : FilePath} {content : Option String} {items : List Value}
    (held : readValue path content = .ok (.array items)) :
    readArray path content = .ok (records items) := by
  have same : (fun item => !isComment item) = fun item => decide (¬ Documents item) := by
    funext item
    rw [Bool.eq_iff_iff, decide_eq_true_iff, ← isComment_iff]
    simp
  simp only [readArray, held, Outcome.ok_bind, Outcome.pure_eq, records, same]

variable {α : Type} {model : String} {read : Reader α}

/-- Every record is valid and has its value at its place. -/
def Valid (read : Reader α) (records : List Value) (values : List α) : Prop :=
  List.Forall₂ (fun record value => read record = .accepted value) records values

def failure? (model : String) (read : Reader α) (numbered : Value × Nat) :
    Option (Nat × Report) :=
  match read numbered.1 with
  | .accepted _ => none
  | .rejected issues => some (numbered.2, ⟨model, issues⟩)

/-- The records that are not valid, each with its number and what is wrong with it. -/
def failures (model : String) (read : Reader α) (records : List Value) : List (Nat × Report) :=
  records.zipIdx.filterMap (failure? model read)

theorem failuresFrom_eq (index : Nat) (records : List Value) :
    failuresFrom model read index records =
      (records.zipIdx index).filterMap (failure? model read) := by
  induction records generalizing index with
  | nil => rfl
  | cons record rest ih =>
      cases found : read record <;>
        simp [failuresFrom, failure?, Checked.report, found, ih, List.zipIdx_cons]

theorem validRecords_eq_of_valid {records : List Value} {values : List α}
    (valid : Valid read records values) : validRecords read records = values := by
  induction valid with
  | nil => rfl
  | cons accepted _ ih => simpa [validRecords, accepted] using ih

theorem failures_eq_nil_iff {records : List Value} :
    failures model read records = [] ↔ ∃ values, Valid read records values := by
  rw [failures, ← failuresFrom_eq]
  generalize 0 = index
  induction records generalizing index with
  | nil => exact ⟨fun _ => ⟨[], .nil⟩, fun _ => rfl⟩
  | cons record rest ih =>
      cases found : read record with
      | rejected issues =>
          simp [failuresFrom, Checked.report, found, Valid, List.forall₂_cons_left_iff]
      | accepted value =>
          simp [failuresFrom, Checked.report, found, ih, Valid, List.forall₂_cons_left_iff]

theorem validate_eq_ok_iff {path : FilePath} {records : List Value} {values : List α} :
    validate model read path records = .ok values ↔ Valid read records values := by
  have checked : failuresFrom model read 0 records = failures model read records :=
    failuresFrom_eq 0 records
  rw [validate, checked]
  constructor
  · intro validated
    split at validated
    case h_1 none =>
        obtain ⟨found, valid⟩ := failures_eq_nil_iff.mp none
        rw [validRecords_eq_of_valid valid] at validated
        cases validated
        exact valid
    case h_2 => cases validated
  · intro valid
    rw [failures_eq_nil_iff.mpr ⟨values, valid⟩, validRecords_eq_of_valid valid]

theorem validate_eq_error_iff {path : FilePath} {records : List Value} {fault : LoadFault} :
    (validate model read path records : Except LoadFault (List α)) = .error fault ↔
      failures model read records ≠ [] ∧
        fault = .invalidRecords model path.name (failures model read records) := by
  have checked : failuresFrom model read 0 records = failures model read records :=
    failuresFrom_eq 0 records
  rw [validate, checked]
  split
  case h_1 none => simp only [reduceCtorEq, none, ne_eq, not_true_eq_false, false_and]
  case h_2 some =>
      rw [Except.error.injEq, eq_comm]
      exact ⟨fun same => ⟨some, same⟩, And.right⟩

/-- An id that is among the ids before it, and is the first such. -/
structure FirstRepeat (ids : List String) (index : Nat) (id : String) : Prop where
  here : ids[index]? = some id
  earlier : id ∈ ids.take index
  first : (ids.take index).Nodup

theorem duplicateFrom?_eq_none_iff {seen ids : List String} {start : Nat} (distinct : seen.Nodup) :
    duplicateFrom? seen start ids = none ↔ (ids.reverse ++ seen).Nodup := by
  induction ids generalizing seen start with
  | nil => simp [duplicateFrom?, distinct]
  | cons id rest ih =>
      rw [List.reverse_cons, List.append_assoc, List.singleton_append, duplicateFrom?]
      split
      case isTrue again =>
          simp only [reduceCtorEq, false_iff]
          exact fun nodup => (List.nodup_cons.mp nodup.of_append_right).1 again
      case isFalse fresh => exact ih (List.nodup_cons.mpr ⟨fresh, distinct⟩)

theorem duplicateFrom?_eq_some {seen ids : List String} {start index : Nat} {id : String}
    (distinct : seen.Nodup) (found : duplicateFrom? seen start ids = some (index, id)) :
    ∃ before after, ids = before ++ id :: after ∧ index = start + before.length ∧
      id ∈ before.reverse ++ seen ∧ (before.reverse ++ seen).Nodup := by
  induction ids generalizing seen start with
  | nil => cases found
  | cons first rest ih =>
      rw [duplicateFrom?] at found
      split at found
      case isTrue again =>
          cases found
          exact ⟨[], rest, rfl, rfl, again, distinct⟩
      case isFalse fresh =>
          obtain ⟨before, after, rfl, rfl, earlier, apart⟩ :=
            ih (List.nodup_cons.mpr ⟨fresh, distinct⟩) found
          refine ⟨first :: before, after, rfl, ?_, ?_, ?_⟩
          · rw [List.length_cons]
            omega
          · simpa using earlier
          · simpa using apart

theorem FirstRepeat.not_nodup {ids : List String} {index : Nat} {id : String}
    (repeated : FirstRepeat ids index id) : ¬ (ids.take (index + 1)).Nodup := by
  rw [List.take_add_one, repeated.here, Option.toList_some, List.nodup_append]
  rintro ⟨-, -, apart⟩
  exact apart id repeated.earlier id (by simp) rfl

theorem FirstRepeat.le {ids : List String} {index other : Nat} {id id' : String}
    (repeated : FirstRepeat ids index id) (repeated' : FirstRepeat ids other id') :
    other ≤ index :=
  Nat.not_lt.mp fun before =>
    repeated.not_nodup (repeated'.first.sublist (List.take_sublist_take_left before))

theorem FirstRepeat.unique {ids : List String} {index other : Nat} {id id' : String}
    (repeated : FirstRepeat ids index id) (repeated' : FirstRepeat ids other id') :
    index = other ∧ id = id' := by
  obtain rfl := Nat.le_antisymm (repeated'.le repeated) (repeated.le repeated')
  exact ⟨rfl, Option.some.inj (repeated.here.symm.trans repeated'.here)⟩

theorem requireDistinct_eq_ok_iff {noun : String} {path : FilePath} {ids : List String} :
    requireDistinct noun path ids = .ok () ↔ ids.Nodup := by
  have scanned := @duplicateFrom?_eq_none_iff [] ids 0 .nil
  rw [List.append_nil, List.nodup_reverse] at scanned
  rw [← scanned, requireDistinct]
  cases duplicateFrom? [] 0 ids <;> simp

theorem requireDistinct_eq_error_iff {noun : String} {path : FilePath} {ids : List String}
    {fault : LoadFault} :
    requireDistinct noun path ids = .error fault ↔
      ∃ index id, FirstRepeat ids index id ∧ fault = .duplicate noun id index path.name := by
  have first : ∀ index id,
      duplicateFrom? [] 0 ids = some (index, id) → FirstRepeat ids index id := by
    intro index id found
    obtain ⟨before, after, rfl, rfl, earlier, apart⟩ := duplicateFrom?_eq_some .nil found
    constructor
    · simp
    · simpa using earlier
    · simpa using apart
  cases scanned : duplicateFrom? [] 0 ids with
  | none =>
      have distinct := @duplicateFrom?_eq_none_iff [] ids 0 .nil
      rw [scanned, List.append_nil, List.nodup_reverse] at distinct
      simp only [requireDistinct, scanned, reduceCtorEq, false_iff]
      rintro ⟨index, id, repeated, -⟩
      exact repeated.not_nodup ((distinct.mp rfl).sublist (List.take_sublist _ _))
  | some found =>
      simp only [requireDistinct, scanned, Except.error.injEq]
      constructor
      · rintro rfl
        exact ⟨found.1, found.2, first _ _ scanned, rfl⟩
      · rintro ⟨index, id, repeated, rfl⟩
        obtain ⟨rfl, rfl⟩ := repeated.unique (first _ _ scanned)
        rfl

/-- What the records of a file are called, and the ids that they must not share. -/
structure Naming (α : Type) where
  noun : String
  id : α → String

def requireApart (naming? : Option (Naming α)) (path : FilePath) (values : List α) :
    Except LoadFault Unit :=
  match naming? with
  | none => .ok ()
  | some naming => requireDistinct naming.noun path (values.map naming.id)

/-- A count of failures, the first ten of them, and how many more there are. -/
def listing (model file : String) (failures : List (Nat × Report)) : String :=
  s!"{failures.length} {model} record(s) failed validation in {file}:" ++
    String.join ((failures.take 10).map fun failure => s!"\n  #{failure.1}: {failure.2.message}") ++
    if 10 < failures.length then s!"\n  … and {failures.length - 10} more" else ""

/-- What comes of a file that holds an array. -/
structure Exact (model : String) (read : Reader α) (naming? : Option (Naming α))
    (path : FilePath) (items : List Value) (outcome : Except LoadFault (List α)) : Prop where
  /-- All records are valid and their ids are distinct; then their values are returned. -/
  returns : ∀ values, outcome = .ok values ↔
    Valid read (records items) values ∧
      ∀ naming ∈ naming?, (values.map naming.id).Nodup
  /-- Either some records are not valid, and all of these are told; or all are valid, and the
      first is told whose id is there already. -/
  refuses : ∀ fault, outcome = .error fault ↔
    (failures model read (records items) ≠ [] ∧
      fault = .invalidRecords model path.name (failures model read (records items))) ∨
    ∃ naming ∈ naming?, ∃ values index id, Valid read (records items) values ∧
      FirstRepeat (values.map naming.id) index id ∧
      fault = .duplicate naming.noun id index path.name
  /-- The message about records that are not valid. -/
  message : ∀ fault, outcome = .error fault → failures model read (records items) ≠ [] →
    fault.message = listing model path.name (failures model read (records items))
  /-- The message about a repeated id, among records that are all valid. -/
  repetition : ∀ fault, outcome = .error fault → failures model read (records items) = [] →
    ∃ naming ∈ naming?, ∃ values index id, Valid read (records items) values ∧
      FirstRepeat (values.map naming.id) index id ∧
      fault.message = s!"Duplicate {naming.noun} id '{id}' at index {index} in {path.name}."

theorem intercalate_cons_eq_join (separator first : String) (rest : List String) :
    separator.intercalate (first :: rest) = first ++ String.join (rest.map (separator ++ ·)) := by
  induction rest generalizing first with
  | nil => simp
  | cons next rest ih =>
      rw [String.intercalate_cons_cons, ih, List.map_cons, String.join_cons, String.append_assoc,
        String.append_assoc]

theorem message_invalidRecords (model file : String) (failures : List (Nat × Report)) :
    (LoadFault.invalidRecords model file failures).message = listing model file failures := by
  have told : (LoadFault.invalidRecords model file failures).message =
      "\n".intercalate (s!"{failures.length} {model} record(s) failed validation in {file}:" ::
        LoadFault.failureLines failures) := rfl
  have line (failure : Nat × Report) : "\n" ++ s!"  #{failure.1}: {failure.2.message}" =
      s!"\n  #{failure.1}: {failure.2.message}" := by
    have mark : "\n" ++ toString "  #" = toString "\n  #" := rfl
    simp only [← mark, String.append_assoc]
  have rest (count : Nat) : "\n" ++ s!"  … and {count} more" = s!"\n  … and {count} more" := by
    have mark : "\n" ++ toString "  … and " = toString "\n  … and " := rfl
    simp only [← mark, String.append_assoc]
  have lines : LoadFault.failureLines failures =
      ((failures.take 10).map fun failure => s!"  #{failure.1}: {failure.2.message}") ++
        if 10 < failures.length then [s!"  … and {failures.length - 10} more"] else [] := rfl
  have tail : String.join ((if 10 < failures.length
      then [s!"  … and {failures.length - 10} more"] else []).map ("\n" ++ ·)) =
      if 10 < failures.length then s!"\n  … and {failures.length - 10} more" else "" := by
    split
    · rw [List.map_singleton, rest, String.join_cons, String.join_nil, String.append_empty]
    · rfl
  rw [told, intercalate_cons_eq_join, lines, List.map_append, List.map_map, String.join_append,
    tail, listing]
  simp only [Function.comp_def, line]
  simp only [String.append_assoc]

theorem requireApart_eq_ok_iff {naming? : Option (Naming α)} {path : FilePath}
    {values : List α} :
    requireApart naming? path values = .ok () ↔
      ∀ naming ∈ naming?, (values.map naming.id).Nodup := by
  cases naming? <;> simp [requireApart, requireDistinct_eq_ok_iff]

theorem requireApart_eq_error_iff {naming? : Option (Naming α)} {path : FilePath}
    {values : List α} {fault : LoadFault} :
    requireApart naming? path values = .error fault ↔
      ∃ naming ∈ naming?, ∃ index id, FirstRepeat (values.map naming.id) index id ∧
        fault = .duplicate naming.noun id index path.name := by
  cases naming? <;> simp [requireApart, requireDistinct_eq_error_iff]

theorem exact_of_steps {naming? : Option (Naming α)} {path : FilePath} {content : Option String}
    {items : List Value} {outcome : Except LoadFault (List α)}
    (held : readValue path content = .ok (.array items))
    (steps : outcome = do
      let values ← validate model read path (← readArray path content)
      requireApart naming? path values
      return values) :
    Exact model read naming? path items outcome := by
  rw [readArray_eq_records held, Outcome.ok_bind] at steps
  have returns : ∀ values, outcome = .ok values ↔
      Valid read (records items) values ∧
        ∀ naming ∈ naming?, (values.map naming.id).Nodup := by
    intro values
    simp only [steps, Outcome.bind_eq_ok_iff, validate_eq_ok_iff, Outcome.pure_eq]
    constructor
    · rintro ⟨found, valid, ⟨⟩, distinct, same⟩
      cases same
      exact ⟨valid, requireApart_eq_ok_iff.mp distinct⟩
    · rintro ⟨valid, distinct⟩
      exact ⟨values, valid, (), requireApart_eq_ok_iff.mpr distinct, rfl⟩
  have refuses : ∀ fault, outcome = .error fault ↔
      (failures model read (records items) ≠ [] ∧
        fault = .invalidRecords model path.name (failures model read (records items))) ∨
      ∃ naming ∈ naming?, ∃ values index id, Valid read (records items) values ∧
        FirstRepeat (values.map naming.id) index id ∧
        fault = .duplicate naming.noun id index path.name := by
    intro fault
    simp only [steps, Outcome.bind_eq_error_iff, validate_eq_ok_iff, validate_eq_error_iff,
      Outcome.pure_eq, reduceCtorEq, and_false, exists_false, or_false, requireApart_eq_error_iff]
    refine or_congr_right ?_
    constructor
    · rintro ⟨values, valid, naming, named, index, id, repeated, told⟩
      exact ⟨naming, named, values, index, id, valid, repeated, told⟩
    · rintro ⟨naming, named, values, index, id, valid, repeated, told⟩
      exact ⟨values, valid, naming, named, index, id, repeated, told⟩
  refine ⟨returns, refuses, fun fault failed invalid => ?_, fun fault failed none => ?_⟩
  · rcases (refuses fault).mp failed with ⟨-, rfl⟩ | ⟨_, _, values, _, _, valid, -⟩
    · exact message_invalidRecords _ _ _
    · exact absurd (failures_eq_nil_iff.mpr ⟨values, valid⟩) invalid
  · rcases (refuses fault).mp failed with
      ⟨some, -⟩ | ⟨naming, named, values, index, id, valid, repeated, rfl⟩
    · exact absurd none some
    · exact ⟨naming, named, values, index, id, valid, repeated, rfl⟩

/-- A file that holds an array is loaded all or nothing, and documentation in it makes no
    difference. -/
theorem load_exact (path : FilePath) (text : String) (items : List Value)
    (held : readValue path (some text) = .ok (.array items)) :
    Exact "Rule" Rule.reader (some ⟨"rule", Rule.id⟩) path items (rules path (some text)) ∧
    Exact "Product" Product.reader (some ⟨"product", Product.id⟩) path items
      (products path (some text)) ∧
    Exact "Event" Event.reader none path items (events path (some text)) ∧
    ∀ text' items', readValue path (some text') = .ok (.array items') →
      records items' = records items →
      rules path (some text') = rules path (some text) ∧
      products path (some text') = products path (some text) ∧
      events path (some text') = events path (some text) := by
  refine ⟨exact_of_steps held rfl, exact_of_steps held rfl, exact_of_steps held ?_, ?_⟩
  · rw [events]
    cases readArray path (some text) with
    | error fault => rfl
    | ok found => exact (bind_pure (validate "Event" Event.reader path found)).symm
  · intro text' items' held' same
    have array := readArray_eq_records held
    have array' := readArray_eq_records held'
    simp only [rules, products, events, array, array', same, and_self]

def visitsPath : FilePath := FilePath.ofText "visits.json"

/-- Documentation, a record, and something that is no record. -/
def visitItems : List Value :=
  [.object [("_comment", .string "visits")], .object [("type", .string "LOGIN")], .null]

theorem load_exact_visits :
    readValue visitsPath (some (Form.indented.text (.array visitItems))) =
      .ok (.array visitItems) ∧
    Exact "Event" Event.reader none visitsPath visitItems
      (events visitsPath (some (Form.indented.text (.array visitItems)))) := by
  have exact : (Value.array visitItems).Everywhere Value.IsExact := by
    simp [visitItems, Value.IsExact, Value.HasDistinctNames, Value.HasShortInteger,
      Value.HasNoReal, Fields.names]
  have held := readValue_text visitsPath Form.regular_indented exact.legible (by decide)
  exact ⟨held, (load_exact _ _ _ held).2.2.1⟩

end Loading

end NextOffer
