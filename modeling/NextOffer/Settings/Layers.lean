import NextOffer.Settings.Basic
import NextOffer.Toml.Document

/-! # Layers of settings

A settings file, over it a local file beside it, over both the environment. An empty
variable counts as absent.
-/

namespace NextOffer

structure Overrides where
  seedDir : Option String := none
  outputDir : Option String := none
  logLevel : Option String := none
  debug : Option String := none
  deriving DecidableEq, Repr

namespace Overrides

def names : List String :=
  ["RULE_STUDIO_SEED_DIR", "RULE_STUDIO_OUTPUT_DIR", "RULE_STUDIO_LOG_LEVEL",
    "RULE_STUDIO_DEBUG"]

def present (value : Option String) : Option String := value.filter (· ≠ "")

def ofEnvironment (environment : Fields String) : Overrides := {
  seedDir := present (environment.get? "RULE_STUDIO_SEED_DIR")
  outputDir := present (environment.get? "RULE_STUDIO_OUTPUT_DIR")
  logLevel := present (environment.get? "RULE_STUDIO_LOG_LEVEL")
  debug := present (environment.get? "RULE_STUDIO_DEBUG") }

/-- Words that switch debugging on, in any case; all others switch it off. -/
def isOn (word : String) : Bool :=
  let folded := String.ofList (Text.lower word.toList)
  folded ∈ ["1", "true", "yes"]

end Overrides

namespace Settings

/-- Write a value into a section, which is made when it is absent. -/
def assign (root : Fields Setting) (heading name : String) (value : Option String) :
    Except SettingsFault (Fields Setting) :=
  match value with
  | none => .ok root
  | some value =>
      match (root.get? heading).getD (.table []) with
      | .table entries => .ok (root.set heading (.table (Fields.set entries name (.text value))))
      | other => .error (.unchangeable other.kindName)

def override (root : Fields Setting) (overrides : Overrides) :
    Except SettingsFault (Fields Setting) := do
  let root ← assign root "data" "seed_dir" overrides.seedDir
  let root ← assign root "data" "output_dir" overrides.outputDir
  let root ← assign root "logging" "level" overrides.logLevel
  match overrides.debug with
  | none => return root
  | some word => return root.set "debug" (.plain (.bool (Overrides.isOn word)))

def parseFile (text : String) : Except SettingsFault (Fields Setting) :=
  match Toml.parse? text with
  | some root => .ok root
  | none => .error .malformed

/-- The settings of a file, a local file over it, and the environment over both. -/
def ofFiles (base : String) (localFile : Option String) (overrides : Overrides) :
    Except SettingsFault Settings := do
  let root ← parseFile base
  let root ← match localFile with
    | none => pure root
    | some text => (parseFile text).map (Setting.merge root)
  ofTable (← override root overrides)

end Settings

end NextOffer
