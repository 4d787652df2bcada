import NextOffer.Proofs.Outcome
import NextOffer.Proofs.Settings.Merge
import NextOffer.Proofs.WellFormed

/-! # Layers of settings override in order

Each setting has a section, a name, a reader and a default, and some have a variable of the
environment. It is read from the first layer that has something for it: the variable, the local
file, the settings file; and it is the default when none has. What the layers have for other
settings makes no difference.
-/

namespace NextOffer

namespace Setting

theorem get?_toEntries (entries : Fields Setting) (name : String) :
    Fields.get? (toEntries entries) name = (entries.get? name).map toJson := by
  induction entries with
  | nil => rfl
  | cons entry rest ih =>
      obtain ⟨other, value⟩ := entry
      rw [toEntries, Fields.get?, Fields.get?, ih]
      split <;> rfl

end Setting

namespace Settings

open Schema

/-- What a table has under a name in a section, as long as the section is a table. -/
def lookup? (root : Fields Setting) (heading name : String) : Option Setting :=
  match root.get? heading with
  | some (.table entries) => Fields.get? entries name
  | _ => none

/-- The section is there, but it is no table. -/
def isSpoilt (root : Fields Setting) (heading : String) : Bool :=
  match root.get? heading with
  | none | some (.table _) => false
  | some _ => true

/-- A setting: where it stands, how it is read, and what it is when it stands nowhere. -/
structure Field where
  heading : String
  name : String
  /-- The variable of the environment that it may come from. -/
  word : Option String := none
  Value : Type
  read : Reader Value
  default : Value
  get : Settings → Value

def fields : List Field := [
  ⟨"data", "seed_dir", some "RULE_STUDIO_SEED_DIR", String, Reader.text, "config/seed",
    (·.places.seedDir)⟩,
  ⟨"data", "rules_file", none, String, Reader.text, "rules.json", (·.places.rulesFile)⟩,
  ⟨"data", "products_file", none, String, Reader.text, "products.json", (·.places.productsFile)⟩,
  ⟨"data", "profile_file", none, String, Reader.text, "profile.json", (·.places.profileFile)⟩,
  ⟨"data", "events_file", none, String, Reader.text, "events.json", (·.places.eventsFile)⟩,
  ⟨"data", "output_dir", some "RULE_STUDIO_OUTPUT_DIR", String, Reader.text, "data/outputs",
    (·.places.outputDir)⟩,
  ⟨"engine", "score_precision", none, Int, precisionReader, 2, (·.precision)⟩,
  ⟨"logging", "level", some "RULE_STUDIO_LOG_LEVEL", Log.Level, LogSettings.levelReader, .info,
    (·.log.level)⟩,
  ⟨"logging", "log_file", none, String, Reader.text, "", (·.log.file)⟩,
  ⟨"logging", "json_format", none, Bool, Reader.truth, false, (·.log.json)⟩]

/-- A settings file, the local file if there is one, and the environment. -/
structure Layers where
  base : Fields Setting
  beside : Option (Fields Setting)
  environment : Fields String
  distinct : ∀ table ∈ beside, Setting.Distinct (.table table)

namespace Layers

variable (layers : Layers) (field : Field)

/-- The two files as one table. -/
def merged : Fields Setting :=
  match layers.beside with
  | none => layers.base
  | some table => Setting.merge layers.base table

def read : Except SettingsFault Settings := do
  ofTable (← override layers.merged (.ofEnvironment layers.environment))

/-- A variable counts unless it is empty. -/
def ofEnvironment? : Option Setting :=
  ((field.word.bind layers.environment.get?).filter (· ≠ "")).map .text

def ofBeside? : Option Setting := layers.beside.bind (lookup? · field.heading field.name)

/-- The settings file counts unless the local file has something else in the place of the
    section. -/
def ofBase? : Option Setting :=
  if layers.beside.any (isSpoilt · field.heading) then none
  else lookup? layers.base field.heading field.name

/-- What the first layer has that has something for the setting. -/
def first? : Option Setting :=
  (layers.ofEnvironment? field).or ((layers.ofBeside? field).or (layers.ofBase? field))

/-- The texts of the two files hold these tables. -/
structure Spelled (base : String) (beside : Option String) : Prop where
  base : Toml.parse? base = some layers.base
  beside : beside.map Toml.parse? = layers.beside.map some

end Layers

/-- The value that is read where something is found, else the default. -/
def Field.Gives (field : Field) (found : Option Setting) (value : field.Value) : Prop :=
  match found with
  | some setting => field.read setting.toJson = .accepted value
  | none => value = field.default

/-! ## Files over one another -/

section

variable {root : Fields Setting} {heading name : String}

/-- A merged table has what the upper one has, else what the lower one has; or it has a table
    there. -/
theorem lookup?_merge {base top : Fields Setting} (distinct : Setting.Distinct (.table top))
    (heading name : String) :
    lookup? (Setting.merge base top) heading name =
        (lookup? top heading name).or
          (if isSpoilt top heading then none else lookup? base heading name) ∨
      ∃ entries, lookup? (Setting.merge base top) heading name = some (.table entries) := by
  have merged := @Setting.get?_merge base top distinct.nodup heading
  cases upper : top.get? heading with
  | none =>
      left
      rw [upper, Option.map_none, Option.none_or] at merged
      simp [lookup?, isSpoilt, upper, merged]
  | some section' =>
      rw [upper, Option.map_some, Option.some_or] at merged
      cases section' with
      | plain _ | moment _ | list _ =>
          left
          simp [lookup?, isSpoilt, upper, merged, Setting.mergeOver]
      | table above =>
          have joined : ∀ below, base.get? heading = some (.table below) →
              lookup? (Setting.merge base top) heading name =
                ((Fields.get? above name).map (Setting.mergeOver (Fields.get? below name))).or
                  (Fields.get? below name) := by
            intro below lower
            rw [lookup?, merged, lower, Setting.mergeOver]
            exact Setting.get?_merge (distinct.get? upper).nodup name
          cases lower : base.get? heading with
          | some section'' =>
              cases section'' with
              | table below =>
                  rw [joined below lower]
                  cases found : Fields.get? above name with
                  | none => simp [lookup?, isSpoilt, upper, lower, found]
                  | some value =>
                      rcases Setting.mergeOver_eq_or_table (Fields.get? below name) value with
                        kept | table
                      · simp [lookup?, upper, found, kept]
                      · simp [table]
              | plain _ | moment _ | list _ =>
                  left
                  simp [lookup?, isSpoilt, upper, merged, lower, Setting.mergeOver]
          | none =>
              left
              simp [lookup?, isSpoilt, upper, merged, lower, Setting.mergeOver]

/-! ## The environment over the files -/

theorem lookup?_assign {value : Option String} {changed : Fields Setting}
    (assigned : assign root heading name value = .ok changed) (heading' name' : String) :
    lookup? changed heading' name' =
      ((if heading' = heading ∧ name' = name then value else none).map Setting.text).or
        (lookup? root heading' name') := by
  unfold assign at assigned
  cases value with
  | none =>
      cases assigned
      simp
  | some value =>
      dsimp only at assigned
      split at assigned
      case h_1 entries located =>
          cases assigned
          rw [lookup?, Fields.get?_set]
          by_cases here : heading = heading'
          · subst here
            have old : lookup? root heading name' = Fields.get? entries name' := by
              cases present : root.get? heading <;> simp_all [lookup?, Fields.get?]
            rw [if_pos rfl, old]
            dsimp only
            rw [Fields.get?_set]
            by_cases same : name = name'
            · simp [same]
            · simp [same, Ne.symm same]
          · have elsewhere : ¬ (heading' = heading ∧ name' = name) := fun same => here same.1.symm
            rw [if_neg here, if_neg elsewhere, Option.map_none, Option.none_or, lookup?]
      case h_2 => cases assigned

/-- The variable of the environment for an entry of a section. -/
def assigned? (overrides : Overrides) (heading name : String) : Option String :=
  if heading = "data" ∧ name = "seed_dir" then overrides.seedDir
  else if heading = "data" ∧ name = "output_dir" then overrides.outputDir
  else if heading = "logging" ∧ name = "level" then overrides.logLevel
  else none

theorem lookup?_override {overrides : Overrides} {changed : Fields Setting}
    (overridden : override root overrides = .ok changed) (section' : heading ≠ "debug") :
    lookup? changed heading name =
      ((assigned? overrides heading name).map Setting.text).or (lookup? root heading name) := by
  obtain ⟨first, seedDir, overridden⟩ := Outcome.bind_eq_ok_iff.mp overridden
  obtain ⟨second, outputDir, overridden⟩ := Outcome.bind_eq_ok_iff.mp overridden
  obtain ⟨third, logLevel, overridden⟩ := Outcome.bind_eq_ok_iff.mp overridden
  have last : lookup? changed heading name = lookup? third heading name := by
    split at overridden
    case h_1 =>
        cases overridden
        rfl
    case h_2 word =>
        cases overridden
        rw [lookup?, Fields.get?_set, if_neg (Ne.symm section'), lookup?]
  rw [last, lookup?_assign logLevel, lookup?_assign outputDir, lookup?_assign seedDir, assigned?]
  split_ifs <;> simp_all

end

/-! ## Reading the sections -/

theorem optional_eq_accepted_iff {α : Type} {entries : Fields Json.Value} {name : String}
    {default result : α} {read : Reader α} :
    Reader.optional entries (.plain name) default read = .accepted result ↔
      match entries.get? name with
      | some value => read value = .accepted result
      | none => result = default := by
  unfold Reader.optional Key.find? Key.plain
  cases entries.get? name with
  | none => simp [eq_comm]
  | some value => exact Checked.under_eq_accepted_iff

section

variable {root : Fields Setting} {settings : Settings}

theorem read_of_readSection {α : Type} {heading model : String}
    {read : Fields Json.Value → Checked α} {result : α}
    (done : readSection root heading model read = .ok result) :
    ∃ entries : Fields Setting, read (Setting.toEntries entries) = .accepted result ∧
      ∀ name, Fields.get? entries name = lookup? root heading name := by
  unfold readSection at done
  split at done
  case h_1 entries located =>
      refine ⟨entries, ?_, fun name => ?_⟩
      · have reported := Outcome.mapError_eq_ok_iff.mp done
        cases accepted : read (Setting.toEntries entries) with
        | accepted found =>
            rw [accepted] at reported
            cases reported
            rfl
        | rejected issues =>
            rw [accepted] at reported
            cases reported
      · cases present : root.get? heading <;> simp_all [lookup?, Fields.get?]
  case h_2 => cases done

/-- The settings that are read have what each entry of the table gives. -/
theorem gives_of_ofTable (done : ofTable root = .ok settings) :
    ∀ field ∈ fields, field.Gives (lookup? root field.heading field.name) (field.get settings) := by
  obtain ⟨places, placed, done⟩ := Outcome.bind_eq_ok_iff.mp done
  obtain ⟨precision, measured, done⟩ := Outcome.bind_eq_ok_iff.mp done
  obtain ⟨log, logged, done⟩ := Outcome.bind_eq_ok_iff.mp done
  obtain ⟨_, -, done⟩ := Outcome.bind_eq_ok_iff.mp done
  obtain ⟨_, -, same⟩ := Outcome.bind_eq_ok_iff.mp done
  cases same
  have gives {entries : Fields Setting} {field : Field}
      (here : ∀ name, Fields.get? entries name = lookup? root field.heading name)
      {value : field.Value} (accepted : Reader.optional (Setting.toEntries entries)
        (.plain field.name) field.default field.read = .accepted value) :
      field.Gives (lookup? root field.heading field.name) value := by
    rw [optional_eq_accepted_iff, Setting.get?_toEntries, here] at accepted
    cases found : lookup? root field.heading field.name <;> rw [found] at accepted <;>
      exact accepted
  obtain ⟨data, placed, inData⟩ := read_of_readSection placed
  obtain ⟨engine, measured, inEngine⟩ := read_of_readSection measured
  obtain ⟨logging, logged, inLogging⟩ := read_of_readSection logged
  obtain ⟨_, _, first5, outputDir, rfl⟩ := Checked.seq_eq_accepted_iff.mp placed
  obtain ⟨_, _, first4, eventsFile, rfl⟩ := Checked.seq_eq_accepted_iff.mp first5
  obtain ⟨_, _, first3, profileFile, rfl⟩ := Checked.seq_eq_accepted_iff.mp first4
  obtain ⟨_, _, first2, productsFile, rfl⟩ := Checked.seq_eq_accepted_iff.mp first3
  obtain ⟨_, _, first1, rulesFile, rfl⟩ := Checked.seq_eq_accepted_iff.mp first2
  obtain ⟨_, seedDir, rfl⟩ := Checked.map_eq_accepted_iff.mp first1
  obtain ⟨_, _, logged2, json, rfl⟩ := Checked.seq_eq_accepted_iff.mp logged
  obtain ⟨_, _, logged1, file, rfl⟩ := Checked.seq_eq_accepted_iff.mp logged2
  obtain ⟨_, level, rfl⟩ := Checked.map_eq_accepted_iff.mp logged1
  simp only [fields, List.forall_mem_cons, List.not_mem_nil, false_imp_iff, implies_true, and_true]
  exact ⟨gives inData seedDir, gives inData rulesFile, gives inData productsFile,
    gives inData profileFile, gives inData eventsFile, gives inData outputDir,
    gives inEngine measured, gives inLogging level, gives inLogging file, gives inLogging json⟩

theorem not_reads_object : ∀ field ∈ fields, ∀ entries value,
    field.read (.object entries) ≠ .accepted value := by
  simp only [fields, List.forall_mem_cons, List.not_mem_nil, false_imp_iff, implies_true, and_true]
  refine ⟨?_, ?_, ?_, ?_, ?_, ?_, ?_, ?_, ?_, ?_⟩
  all_goals
    intro entries value accepted
    cases accepted

end

/-! ## Layers -/

namespace Field

theorem heading_ne_debug : ∀ field ∈ fields, field.heading ≠ "debug" := by decide

theorem assigned?_eq (environment : Fields String) : ∀ field ∈ fields,
    assigned? (.ofEnvironment environment) field.heading field.name =
      (field.word.bind environment.get?).filter (· ≠ "") := by
  simp [fields, assigned?, Overrides.ofEnvironment, Overrides.present]

theorem Gives.unique {field : Field} {found : Option Setting} {value other : field.Value}
    (gives : field.Gives found value) (gives' : field.Gives found other) : value = other := by
  cases found with
  | none => exact gives.trans gives'.symm
  | some setting => exact Checked.accepted.inj (gives.symm.trans gives')

end Field

namespace Layers

variable {layers : Layers} {settings : Settings}

theorem lookup?_merged (layers : Layers) (field : Field) :
    lookup? layers.merged field.heading field.name =
        (layers.ofBeside? field).or (layers.ofBase? field) ∨
      ∃ entries, lookup? layers.merged field.heading field.name = some (.table entries) := by
  obtain ⟨base, _ | table, environment, distinct⟩ := layers
  · exact .inl rfl
  · exact lookup?_merge (distinct table rfl) field.heading field.name

theorem gives_first? (read : layers.read = .ok settings) :
    ∀ field ∈ fields, field.Gives (layers.first? field) (field.get settings) := by
  intro field member
  obtain ⟨root, overridden, done⟩ := Outcome.bind_eq_ok_iff.mp read
  have gives := gives_of_ofTable done field member
  have entry : lookup? root field.heading field.name =
      (layers.ofEnvironment? field).or (lookup? layers.merged field.heading field.name) := by
    rw [lookup?_override overridden (Field.heading_ne_debug field member),
      Field.assigned?_eq _ field member, ofEnvironment?]
  rw [entry] at gives
  rcases layers.lookup?_merged field with files | ⟨entries, table⟩
  · rw [files] at gives
    exact gives
  · rw [table] at gives
    rw [first?]
    cases word : layers.ofEnvironment? field with
    | some text =>
        rw [word] at gives
        exact gives
    | none =>
        rw [word] at gives
        exact absurd gives (not_reads_object field member _ _)

theorem exists_of_ofFiles {base : String} {beside : Option String} {environment : Fields String}
    (returned : ofFiles base beside (.ofEnvironment environment) = .ok settings) :
    ∃ layers : Layers, layers.Spelled base beside ∧ layers.environment = environment ∧
      layers.read = .ok settings := by
  have parsed {text : String} {root : Fields Setting} (found : parseFile text = .ok root) :
      Toml.parse? text = some root := by
    unfold parseFile at found
    split at found <;> cases found
    assumption
  obtain ⟨root, first, rest⟩ := Outcome.bind_eq_ok_iff.mp returned
  cases beside with
  | none => exact ⟨⟨root, none, environment, nofun⟩, ⟨parsed first, rfl⟩, rfl, rest⟩
  | some text =>
      obtain ⟨merged, local', rest⟩ := Outcome.bind_eq_ok_iff.mp rest
      cases second : parseFile text with
      | error fault =>
          rw [second] at local'
          cases local'
      | ok table =>
          rw [second] at local'
          cases local'
          have distinct : ∀ other ∈ some table, Setting.Distinct (.table other) := by
            rintro _ ⟨⟩
            exact Toml.distinct_of_parse? (parsed second)
          exact ⟨⟨root, some table, environment, distinct⟩,
            ⟨parsed first, congrArg some (parsed second)⟩, rfl, rest⟩

end Layers

/-- Whatever files hold, their settings are read through layers; and each setting is what the
    first layer gives that has something for it, whatever the layers have for other settings. -/
theorem layers_override_in_order :
    (∀ (base : String) (beside : Option String) (environment : Fields String)
        (settings : Settings),
      ofFiles base beside (.ofEnvironment environment) = .ok settings →
      ∃ layers : Layers, layers.Spelled base beside ∧ layers.environment = environment ∧
        layers.read = .ok settings) ∧
    ∀ (layers : Layers) (settings : Settings), layers.read = .ok settings →
      (∀ field ∈ fields, field.Gives (layers.first? field) (field.get settings)) ∧
      ∀ (others : Layers) (settings' : Settings), others.read = .ok settings' →
        ∀ field ∈ fields, others.first? field = layers.first? field →
          field.get settings' = field.get settings := by
  refine ⟨fun _ _ _ _ => Layers.exists_of_ofFiles, fun layers settings read =>
    ⟨Layers.gives_first? read, fun others settings' read' field member same => ?_⟩⟩
  have gives := Layers.gives_first? read' field member
  rw [same] at gives
  exact gives.unique (Layers.gives_first? read field member)

def lowerText : String := "logging = ''\ndata.seed_dir = 'a'\ndata.rules_file = 'r'"

/-- A local file that replaces one section and changes another. -/
def upperText : String := "data.seed_dir = 'b'\nlogging.level = 'error'"

def topmost : Fields String := [("RULE_STUDIO_SEED_DIR", "c"), ("RULE_STUDIO_LOG_LEVEL", "")]

def joined : Settings where
  places := { seedDir := "c", rulesFile := "r" }
  log := { level := .error }

theorem layers_override_in_order_joined :
    ofFiles lowerText (some upperText) (.ofEnvironment topmost) = .ok joined ∧
    ∃ layers : Layers, layers.Spelled lowerText (some upperText) ∧
      layers.environment = topmost ∧
      ∀ field ∈ fields, field.Gives (layers.first? field) (field.get joined) := by
  have returned : ofFiles lowerText (some upperText) (.ofEnvironment topmost) =
      .ok joined := by decide +kernel
  obtain ⟨layers, spelled, same, read⟩ := layers_override_in_order.1 _ _ _ _ returned
  exact ⟨returned, layers, spelled, same, (layers_override_in_order.2 layers _ read).1⟩

end Settings

end NextOffer
