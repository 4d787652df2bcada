import NextOffer.FilePath
import NextOffer.Log.Record
import NextOffer.Schema.Reader
import NextOffer.Settings.Setting
import NextOffer.Text.LetterCase

/-! # Settings

The settings of the program, read from merged layers of tables. A layer of environment
variables comes on top of the files.
-/

namespace NextOffer

structure Places where
  seedDir : String := "config/seed"
  rulesFile : String := "rules.json"
  productsFile : String := "products.json"
  profileFile : String := "profile.json"
  eventsFile : String := "events.json"
  outputDir : String := "data/outputs"
  deriving DecidableEq, Repr

/-- What is logged, and how. -/
structure LogSettings where
  level : Log.Level := .info
  /-- A file that receives all lines, unless it is empty. -/
  file : String := ""
  json : Bool := false
  deriving DecidableEq, Repr

structure Settings where
  places : Places := {}
  precision : Int := 2
  log : LogSettings := {}
  debug : Bool := false
  deriving DecidableEq, Repr

inductive SettingsFault where
  | missing (path : FilePath)
  | directory (path : FilePath)
  | nameTooLong (path : FilePath)
  | malformed
  /-- A section that has to be changed is no table. -/
  | unchangeable (kind : String)
  | sectionExpected (model kind : String)
  | projectExpected (kind : String)
  | invalid (report : Schema.Report)
  deriving DecidableEq, Repr

namespace SettingsFault

def message : SettingsFault → String
  | missing path => s!"Config file not found: {path.text}"
  | directory path => s!"[Errno 21] Is a directory: {Text.quoted path.text}"
  | nameTooLong path => s!"[Errno 36] File name too long: {Text.quoted path.text}"
  | malformed => "Invalid TOML document"
  | unchangeable kind =>
      if kind = "list" then "list indices must be integers or slices, not str"
      else s!"'{kind}' object does not support item assignment"
  | sectionExpected model kind =>
      s!"rule_studio.config.{model}() argument after ** must be a mapping, not {kind}"
  | projectExpected kind => s!"'{kind}' object has no attribute 'get'"
  | invalid report => report.message

end SettingsFault

namespace Places

open Schema

def seedPath (places : Places) (file : String) : FilePath :=
  (FilePath.ofText places.seedDir).join (FilePath.ofText file)

def ofEntries (entries : Fields Json.Value) : Checked Places :=
  Places.mk
    <$> Reader.optional entries (.plain "seed_dir") "config/seed" Reader.text
    <*> Reader.optional entries (.plain "rules_file") "rules.json" Reader.text
    <*> Reader.optional entries (.plain "products_file") "products.json" Reader.text
    <*> Reader.optional entries (.plain "profile_file") "profile.json" Reader.text
    <*> Reader.optional entries (.plain "events_file") "events.json" Reader.text
    <*> Reader.optional entries (.plain "output_dir") "data/outputs" Reader.text

end Places

namespace LogSettings

open Schema

def levelNames : List String :=
  (Log.Level.all.map Log.Level.name).mergeSort fun a b => decide (a ≤ b)

def levelReader : Reader Log.Level := fun value =>
  (Reader.text value).bind fun name =>
    match Log.Level.ofName? (Text.latinCapitals name) with
    | some level => .accepted level
    | none =>
        let names := (Json.Value.strings levelNames).inspect
        .reject (.refused s!"Log level must be one of {names}, got '{name}'.")

def ofEntries (entries : Fields Json.Value) : Checked LogSettings :=
  LogSettings.mk
    <$> Reader.optional entries (.plain "level") .info levelReader
    <*> Reader.optional entries (.plain "log_file") "" Reader.text
    <*> Reader.optional entries (.plain "json_format") false Reader.truth

end LogSettings

namespace Settings

open Schema

/-- Read a number of decimal places, at most six. -/
def precisionReader : Reader Int := fun value =>
  (Reader.integer value).bind fun n =>
    if 0 ≤ n ∧ n ≤ 6 then .accepted n
    else
      match (Number.int n).plain with
      | .ok text => .reject (.refused s!"score_precision must be in [0, 6], got {text}.")
      | .error fault => .reject (.refused fault.message)

def precisionOfEntries (entries : Fields Json.Value) : Checked Int :=
  Reader.optional entries (.plain "score_precision") 2 precisionReader

/-- Read a section, which is empty when it is absent. -/
def readSection {α : Type} (root : Fields Setting) (name model : String)
    (read : Fields Json.Value → Checked α) : Except SettingsFault α :=
  match (root.get? name).getD (.table []) with
  | .table entries => ((read (Setting.toEntries entries)).report model).mapError .invalid
  | other => .error (.sectionExpected model other.kindName)

/-- The switch for debugging: its own entry, else that of the project, else off. -/
def debugEntry (root : Fields Setting) : Except SettingsFault Json.Value :=
  match (root.get? "project").getD (.table []) with
  | .table project =>
      .ok (((root.get? "debug").or (Fields.get? project "debug")).getD
        (.plain (.bool false))).toJson
  | other => .error (.projectExpected other.kindName)

/-- Read all settings, section by section. -/
def ofTable (root : Fields Setting) : Except SettingsFault Settings := do
  let places ← readSection root "data" "DataConfig" Places.ofEntries
  let precision ← readSection root "engine" "EngineConfig" precisionOfEntries
  let log ← readSection root "logging" "LoggingConfig" LogSettings.ofEntries
  let debug ← debugEntry root
  let debug ← (((Reader.truth debug).under "debug").report "AppConfig").mapError .invalid
  return { places, precision, log, debug }

def toJson (settings : Settings) : Json.Value :=
  .object [
    ("data", .object [
      ("seed_dir", .string settings.places.seedDir),
      ("rules_file", .string settings.places.rulesFile),
      ("products_file", .string settings.places.productsFile),
      ("profile_file", .string settings.places.profileFile),
      ("events_file", .string settings.places.eventsFile),
      ("output_dir", .string settings.places.outputDir)]),
    ("engine", .object [("score_precision", .int settings.precision)]),
    ("logging", .object [
      ("level", .string settings.log.level.name),
      ("log_file", .string settings.log.file),
      ("json_format", .bool settings.log.json)]),
    ("debug", .bool settings.debug)]

end Settings

end NextOffer
