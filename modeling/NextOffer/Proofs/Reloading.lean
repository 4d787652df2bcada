import NextOffer.Proofs.Evaluation.Evolution
import NextOffer.Proofs.Json.Texts
import NextOffer.Proofs.Spelling

/-! # Profiles are read back

A profile that was written, under names of either kind, is loaded as that profile: each field
of its value is found under its name and read as it was. This is so for every profile that the
reader accepts or an evaluation returns, within the limits of writing and of reading, which
are levels of values inside one another and digits of integers.
-/

namespace NextOffer

/-! ## The value of a profile -/

namespace Json.Value

/-- If the value is a floating point value, it is neither a NaN nor an infinity. -/
def HasFinite : Value → Prop
  | .number (.real x) => x.isFinite = true
  | _ => True

theorem HasNoReal.hasFinite {v : Value} (noReal : v.HasNoReal) : v.HasFinite := by
  unfold HasFinite
  split
  case h_1 => exact noReal.elim
  case h_2 => trivial

mutual

theorem finite_of_hasFinite {v : Value} (all : v.Everywhere HasFinite) : v.finite = v := by
  cases v with
  | number x =>
      cases x with
      | int n => simp [finite]
      | real x =>
          have bounded : x.isFinite = true := all.root
          rw [finite, if_pos bounded]
  | array items => rw [finite, finiteItems_of_hasFinite fun _ member => all.item member]
  | object entries => rw [finite, finiteEntries_of_hasFinite fun _ member => all.entry member]
  | null | bool _ | string _ => rfl
termination_by sizeOf v

theorem finiteItems_of_hasFinite {items : List Value}
    (all : ∀ item ∈ items, item.Everywhere HasFinite) : finiteItems items = items := by
  cases items with
  | nil => rfl
  | cons item rest =>
      rw [finiteItems, finite_of_hasFinite (all _ List.mem_cons_self),
        finiteItems_of_hasFinite fun other member => all other (List.mem_cons_of_mem _ member)]
termination_by sizeOf items

theorem finiteEntries_of_hasFinite {entries : List (String × Value)}
    (all : ∀ entry ∈ entries, entry.2.Everywhere HasFinite) :
    finiteEntries entries = entries := by
  cases entries with
  | nil => rfl
  | cons entry rest =>
      cases entry with | mk name value =>
      rw [finiteEntries, finite_of_hasFinite (all _ List.mem_cons_self),
        finiteEntries_of_hasFinite fun other member => all other (List.mem_cons_of_mem _ member)]
termination_by sizeOf entries

end

theorem itemsHeight_strings (texts : List String) : itemsHeight (texts.map .string) ≤ 1 := by
  induction texts with
  | nil => simp [itemsHeight]
  | cons text rest ih => simp [itemsHeight, height, ih]

theorem entriesHeight_numbers (entries : Fields Number) :
    entriesHeight (entries.mapValues .number) ≤ 1 := by
  unfold Fields.mapValues
  induction entries with
  | nil => simp [entriesHeight]
  | cons entry rest ih => simp [entriesHeight, height, ih]

end Json.Value

namespace Profile

open Json Schema

/-- What a text keeps of a profile, and what it has to be. -/
structure IsExact (profile : Profile) : Prop where
  staticData : (Value.object profile.staticData).Everywhere Value.IsExact
  behavioral : (Value.object profile.behavioral).Everywhere Value.IsExact
  scores : (Value.ofNumbers profile.scores).Everywhere Value.IsExact
  tags : profile.tags.Nodup
  lastUpdated : ∀ t ∈ profile.lastUpdated, t.HasWholeMinutes

/-- The entries of a profile's value when nothing in it becomes null. -/
def exactEntries (profile : Profile) (spelling : Spelling) : Fields Value := [
  (spelling.pick "customer_id" "customerId", .string profile.customerId),
  (spelling.pick "static_data" "staticData", .object profile.staticData),
  ("behavioral", .object profile.behavioral),
  ("scores", .ofNumbers profile.scores),
  ("tags", .strings profile.tags),
  (spelling.pick "last_updated" "lastUpdated", updatedValue profile.lastUpdated)]

variable {profile : Profile}

theorem toJson_of_hasFinite (spelling : Spelling)
    (staticData : (Value.object profile.staticData).Everywhere Value.HasFinite)
    (behavioral : (Value.object profile.behavioral).Everywhere Value.HasFinite) :
    profile.toJson spelling = .object (profile.exactEntries spelling) := by
  rw [toJson, Value.finite_of_hasFinite staticData, Value.finite_of_hasFinite behavioral]
  rfl

theorem IsExact.toJson_eq (exact : profile.IsExact) (spelling : Spelling) :
    profile.toJson spelling = .object (profile.exactEntries spelling) :=
  toJson_of_hasFinite spelling (exact.staticData.imp fun _ part => part.2.2.hasFinite)
    (exact.behavioral.imp fun _ part => part.2.2.hasFinite)

theorem IsExact.everywhere (exact : profile.IsExact) (spelling : Spelling) :
    (Value.object (profile.exactEntries spelling)).Everywhere Value.IsExact := by
  have string (text : String) : (Value.string text).Everywhere Value.IsExact :=
    Value.everywhere_string.mpr ⟨trivial, trivial, trivial⟩
  have updated : (updatedValue profile.lastUpdated).Everywhere Value.IsExact := by
    cases profile.lastUpdated with
    | none => exact Value.everywhere_null.mpr ⟨trivial, trivial, trivial⟩
    | some => exact string _
  have tags : (Value.strings profile.tags).Everywhere Value.IsExact :=
    Value.everywhere_strings.mpr
      ⟨⟨trivial, trivial, trivial⟩, fun _ _ => ⟨trivial, trivial, trivial⟩⟩
  have names : (Value.object (profile.exactEntries spelling)).HasDistinctNames := by
    cases spelling <;>
      simp [Value.HasDistinctNames, Fields.names, exactEntries, Spelling.pick]
  refine .ofEntries ⟨names, trivial, trivial⟩ ?_
  simp only [exactEntries, List.forall_mem_cons, List.not_mem_nil, false_imp_iff, implies_true,
    and_true]
  exact ⟨string _, exact.staticData, exact.behavioral, exact.scores, tags, updated⟩

theorem height_exactEntries_le {levels : Nat} (room : profile.fits levels = true)
    (spelling : Spelling) :
    (Value.object (profile.exactEntries spelling)).height ≤ levels + 3 := by
  rw [fits, decide_eq_true_eq] at room
  have tags := Value.itemsHeight_strings profile.tags
  have scores := Value.entriesHeight_numbers profile.scores
  have updated : (updatedValue profile.lastUpdated).height = 1 := by
    cases profile.lastUpdated <;> rfl
  simp only [exactEntries, Value.height, Value.entriesHeight, Value.strings, Value.ofNumbers,
    updated]
  omega

/-! ## Reading the value -/

theorem spelled_exactEntries (profile : Profile) (spelling : Spelling) :
    Spelled profile.items (profile.exactEntries spelling) := by
  cases spelling <;> simp [Spelled, items, exactEntries, Spelling.pick, Key.Names, Key.plain]

theorem IsExact.reader_exactEntries (exact : profile.IsExact) (spelling : Spelling) :
    reader (.object (profile.exactEntries spelling)) = .accepted profile :=
  reader_of_spelled exact.tags exact.lastUpdated (profile.spelled_exactEntries spelling)

/-- A profile has a text, and a file with it is loaded as that profile. -/
theorem IsExact.loads (exact : profile.IsExact) {levels : Nat}
    (room : profile.fits levels = true) (below : levels + 3 ≤ Loading.levels)
    (path : FilePath) {form : Form} (regular : form.Regular) (spelling : Spelling) :
    ∃ text, form.render (profile.toJson spelling) = .ok text ∧
      Loading.profile path (some text) = .ok profile := by
  have legible := (exact.everywhere spelling).legible
  have held := Loading.readValue_text path regular legible
    (Nat.le_trans (height_exactEntries_le room spelling) below)
  rw [exact.toJson_eq]
  refine ⟨_, Form.render_of_isWritable (Value.isWritable_of_legible legible), ?_⟩
  rw [Loading.profile, held]
  simp only [Outcome.ok_bind, exact.reader_exactEntries spelling, Checked.report]
  rfl

/-! ## Profiles that are written -/

/-- A profile that the reader accepts, or that an evaluation returns from such a profile. -/
inductive Attained : Profile → Prop where
  | read {value : Value} {profile : Profile} (distinct : value.Everywhere Value.HasDistinctNames)
      (accepted : reader value = .accepted profile) : Attained profile
  | evaluated {rules : List Rule} {profile : Profile} {events : List Event} {now : Timestamp}
      {evaluation : Evaluation} (first : Attained profile)
      (returned : evaluate rules profile events now = .ok evaluation) :
      Attained evaluation.profile

theorem Attained.wellFormed_distinct (attained : profile.Attained) :
    profile.WellFormed ∧ profile.Distinct := by
  induction attained with
  | read distinct accepted => exact wellFormed_distinct_of_reader accepted distinct
  | evaluated first returned ih =>
      obtain ⟨fired, final, -, -, leads, stamped⟩ := evaluate_fired_rules returned
      have wellFormed := leads.wellFormed ih.1
      have distinct := leads.distinct ih.2
      rw [stamped]
      exact ⟨⟨wellFormed.tags, wellFormed.scoreNames⟩,
        ⟨distinct.scoreNames, distinct.staticData, distinct.behavioral⟩⟩

theorem accepted_of_load {path : FilePath} {content : Option String}
    (loaded : Loading.profile path content = .ok profile) :
    ∃ value, value.Everywhere Value.IsLegible ∧ reader value = .accepted profile := by
  obtain ⟨value, held, loaded⟩ := Outcome.bind_eq_ok_iff.mp loaded
  refine ⟨value, Loading.readValue_legible held, ?_⟩
  cases value with
  | object entries =>
      have reported := Outcome.mapError_eq_ok_iff.mp loaded
      cases read : reader (.object entries) with
      | accepted found =>
          rw [read] at reported
          cases reported
          rfl
      | rejected issues =>
          rw [read] at reported
          cases reported
  | null | bool _ | number _ | string _ | array _ => cases loaded

/-- The attributes, counters and scores, where a text may lose something. -/
def parts (profile : Profile) : List Value :=
  [.object profile.staticData, .object profile.behavioral, .ofNumbers profile.scores]

theorem Attained.isExact (attained : profile.Attained)
    (noReal : ∀ part ∈ profile.parts, part.Everywhere Value.HasNoReal)
    (short : ∀ part ∈ profile.parts, part.Everywhere Value.HasShortInteger)
    (whole : ∀ t ∈ profile.lastUpdated, t.HasWholeMinutes) : profile.IsExact := by
  obtain ⟨wellFormed, distinct⟩ := attained.wellFormed_distinct
  have scores := Value.distinct_ofNumbers distinct.scoreNames
  simp only [parts, List.forall_mem_cons, List.not_mem_nil, false_imp_iff, implies_true,
    and_true] at noReal short
  exact
    { staticData := distinct.staticData.and (short.1.and noReal.1)
      behavioral := distinct.behavioral.and (short.2.1.and noReal.2.1)
      scores := scores.and (short.2.2.and noReal.2.2)
      tags := wellFormed.tags
      lastUpdated := whole }

/-- A profile without floating point values is written in both forms, and loaded from either
    text as it was. -/
theorem Attained.reloads (attained : profile.Attained)
    (noReal : ∀ part ∈ profile.parts, part.Everywhere Value.HasNoReal)
    (short : ∀ part ∈ profile.parts, part.Everywhere Value.HasShortInteger)
    (whole : ∀ t ∈ profile.lastUpdated, t.HasWholeMinutes)
    (room : profile.fits Simulation.dumpLevels = true) (path : FilePath) :
    (∃ text, Form.indented.render (profile.toJson .snake) = .ok text ∧
      Loading.profile path (some text) = .ok profile) ∧
    (∃ text, Form.indentedLatin.render (profile.toJson .camel) = .ok text ∧
      Loading.profile path (some text) = .ok profile) := by
  have exact := attained.isExact noReal short whole
  have below : Simulation.dumpLevels + 3 ≤ Loading.levels := by decide
  exact ⟨exact.loads room below path Form.regular_indented .snake,
    exact.loads room below path Form.regular_indentedLatin .camel⟩

def guestInput : Value := .object [
  ("customerId", .string "C1"),
  ("staticData", .object [("name", .string "Zoë 🦊"), ("\t", .array [.null, .int (-7)])]),
  ("scores", .object [("vip", .int 3), ("churn", .int 0)]),
  ("tags", .strings ["new", "new", "at sea"])]

def guest : Profile :=
  { customerId := "C1"
    staticData := [("name", .string "Zoë 🦊"), ("\t", .array [.null, .int (-7)])]
    scores := [("vip", .int 3), ("churn", .int 0)]
    tags := ["new", "at sea"] }

theorem isDate_arrival : Calendar.IsDate 2026 2 5 := by decide

/-- Ten in the morning, half an hour behind universal time. -/
def arrival : Timestamp :=
  { date := ⟨2026, 2, 5, isDate_arrival⟩
    second := ⟨36000, by decide⟩
    microsecond := ⟨250000, by decide⟩
    offset := some ⟨-1800000000, by decide⟩ }

def arrived : Profile := { guest with lastUpdated := some arrival }

theorem attained_arrived : arrived.Attained := by
  have accepted : reader guestInput = .accepted guest := rfl
  have distinct : guestInput.Everywhere Value.HasDistinctNames := by
    simp [guestInput, Value.HasDistinctNames, Fields.names, Value.int, Value.strings]
  have returned : evaluate [] guest [] arrival = .ok ⟨arrived, []⟩ := rfl
  exact .evaluated (.read distinct accepted) returned

theorem reloads_arrived :
    arrived.Attained ∧
    (∀ part ∈ arrived.parts, part.Everywhere Value.HasNoReal) ∧
    (∀ part ∈ arrived.parts, part.Everywhere Value.HasShortInteger) ∧
    (∀ t ∈ arrived.lastUpdated, t.HasWholeMinutes) ∧
    arrived.fits Simulation.dumpLevels = true ∧
    (∃ text, Form.indented.render (arrived.toJson .snake) = .ok text ∧
      Loading.profile (FilePath.ofText "guest.json") (some text) = .ok arrived) ∧
    (∃ text, Form.indentedLatin.render (arrived.toJson .camel) = .ok text ∧
      Loading.profile (FilePath.ofText "guest.json") (some text) = .ok arrived) := by
  have noReal : ∀ part ∈ arrived.parts, part.Everywhere Value.HasNoReal := by
    simp [parts, arrived, guest, Value.HasNoReal, Value.int, Value.ofNumbers, Fields.mapValues]
  have short : ∀ part ∈ arrived.parts, part.Everywhere Value.HasShortInteger := by
    simp [parts, arrived, guest, Value.HasShortInteger, Value.int, Value.ofNumbers,
      Fields.mapValues, Number.digit_lt_limit, -Nat.pow_eq]
  have whole : ∀ t ∈ arrived.lastUpdated, t.HasWholeMinutes := by
    rintro _ ⟨⟩ _ ⟨⟩
    decide
  have room : arrived.fits Simulation.dumpLevels = true := by decide
  exact ⟨attained_arrived, noReal, short, whole, room,
    attained_arrived.reloads noReal short whole room _⟩

/-! ### Limits -/

def lone (value : Value) : Profile := { customerId := "C1", staticData := [("lone", value)] }

theorem attained_lone {value : Value} (distinct : value.Everywhere Value.HasDistinctNames) :
    (lone value).Attained := by
  have accepted : reader (.object [("customerId", .string "C1"),
      ("staticData", .object [("lone", value)])]) = .accepted (lone value) := rfl
  refine .read ?_ accepted
  simpa [Value.HasDistinctNames, Fields.names] using distinct

theorem everywhere_parts_lone {value : Value} (noReal : value.Everywhere Value.HasNoReal) :
    ∀ part ∈ (lone value).parts, part.Everywhere Value.HasNoReal := by
  simpa [parts, lone, Value.HasNoReal, Value.ofNumbers, Fields.mapValues] using noReal

/-- Arrays inside one another. -/
def tower : Nat → Value
  | 0 => .array []
  | floors + 1 => .array [tower floors]

theorem everywhere_tower {holds : Value → Prop} (array : ∀ items, holds (.array items))
    (floors : Nat) : (tower floors).Everywhere holds := by
  induction floors with
  | zero => simp [tower, array]
  | succ floors ih => simp [tower, array, ih]

theorem height_tower (floors : Nat) : (tower floors).height = floors + 1 := by
  induction floors with
  | zero => simp [tower, Value.height, Value.itemsHeight]
  | succ floors ih =>
      simp [tower, Value.height, Value.itemsHeight, ih]
      omega

/-- The least integer with too many digits. -/
def longInteger : Value := .int (Nat.pow 10 digitLimit)

def towerSimulation : Simulation := ⟨lone (tower 255), lone (tower 255), [], [], ""⟩

/-- Neither of these profiles is loaded as it was: the first is too high to be written, the
    second has too long an integer to be read. -/
theorem reloads_not_beyond_limits :
    (lone (tower 255)).Attained ∧
      (∀ part ∈ (lone (tower 255)).parts, part.Everywhere Value.HasNoReal) ∧
      towerSimulation.report "2026-02-05" = .error .tooDeep ∧
      towerSimulation.dump .camel = .error .tooDeep ∧
    (lone longInteger).Attained ∧
      (∀ part ∈ (lone longInteger).parts, part.Everywhere Value.HasNoReal) ∧
      ∀ path text, Loading.profile path (some text) ≠ .ok (lone longInteger) := by
  have fits (levels : Nat) : (lone (tower 255)).fits levels = decide (256 ≤ levels) := by
    simp [Profile.fits, lone, Value.entriesHeight, height_tower]
  refine ⟨attained_lone (everywhere_tower (fun _ => trivial) 255),
    everywhere_parts_lone (everywhere_tower (fun _ => trivial) 255), ?_, ?_,
    attained_lone (Value.everywhere_number.mpr trivial),
    everywhere_parts_lone (Value.everywhere_number.mpr trivial), ?_⟩
  · have room : towerSimulation.fits Simulation.dumpLevels = false := by
      simp [Simulation.fits, towerSimulation, fits, Simulation.dumpLevels]
    simp [Simulation.report, Simulation.updatedText, room]
    rfl
  · simp [Simulation.dump, Simulation.fits, towerSimulation, fits, Simulation.dumpLevels]
  · intro path text loaded
    obtain ⟨value, legible, accepted⟩ := accepted_of_load loaded
    have kept := (everywhere_of_reader ⟨List.nodup_nil, trivial⟩ accepted legible).1
    have inside : longInteger.Everywhere Value.IsLegible :=
      kept.entry (show ("lone", longInteger) ∈ _ from List.mem_cons_self)
    have short : longInteger.HasShortInteger := inside.root.2
    rw [longInteger, Value.int, Value.HasShortInteger, Int.natAbs_natCast] at short
    exact Nat.lt_irrefl _ short

end Profile

end NextOffer
