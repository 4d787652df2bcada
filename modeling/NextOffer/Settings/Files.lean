import NextOffer.Host
import NextOffer.Settings.Layers

/-! # Settings on a disk

A settings file is given by its path, or it is the one of the project, which lies around the
program. The local file stands beside it. Variables may stand in a file of the project; those
of the environment come before them.
-/

namespace NextOffer

variable {m : Type → Type} [Monad m]

namespace Settings

/-- The file by which the root of a project is known. -/
def projectName : FilePath := FilePath.ofText "pyproject.toml"

/-- The file with variables of a project. -/
def variablesName : FilePath := FilePath.ofText ".env"

/-- The settings file of a project. -/
def defaultName : FilePath := FilePath.ofText "config/default.toml"

/-- The file that is read over a settings file. -/
def localName : FilePath := FilePath.ofText "local.toml"

/-- What a path leads to, unless its names are too long to look for. -/
def entryAt (path : FilePath) : ExceptT SettingsFault (Job m) (Option Entry) :=
  ExceptT.mk do
    match ← Job.act (·.look path) with
    | .ok found => return .ok found
    | .error _ => return .error (.nameTooLong path)

/-- The text of a settings file, unless there is none. -/
def fileText (path : FilePath) : ExceptT SettingsFault (Job m) (Option String) := do
  match ← entryAt path with
  | none => return none
  | some (.file text) => return some text
  | some .directory => throw (.directory path)

/-- The nearest root of a project among so many directories from `place` upwards. -/
def rootFrom (place : FilePath) : Nat → ExceptT SettingsFault (Job m) (Option FilePath)
  | 0 => return none
  | count + 1 => do
      match ← entryAt (place.join projectName) with
      | some _ => return some place
      | none => rootFrom place.parent count

/-- The root of the project around the program; without any the directory above it. -/
def projectRoot : ExceptT SettingsFault (Job m) FilePath := do
  let home := (← read).home
  return (← rootFrom home 5).getD home.parent

/-- The variables of the environment, and behind them those of the project. -/
def overridesIn (root : FilePath) : Job m Overrides := do
  let host ← read
  match ← Job.act (·.look (root.join variablesName)) with
  | .ok (some (.file text)) =>
      return .ofEnvironment (host.environment ++ host.variablesOf host.environment text)
  | _ => return .ofEnvironment host.environment

/-- The settings of a file with the local file beside it, under variables. -/
def ofFile (path : FilePath) (overrides : Overrides) :
    ExceptT SettingsFault (Job m) Settings := do
  let some base ← fileText path | throw (.missing path)
  let _ ← parseFile base
  let beside ← fileText (path.parent.join localName)
  ofFiles base beside overrides

/-- The settings of a file, or of the project around the program. -/
def load (path : Option FilePath) : ExceptT SettingsFault (Job m) Settings := do
  let root ← projectRoot
  let overrides ← (overridesIn root : Job m Overrides)
  ofFile (path.getD (root.join defaultName)) overrides

end Settings

end NextOffer
