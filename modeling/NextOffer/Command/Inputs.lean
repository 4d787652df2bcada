import NextOffer.Loading
import NextOffer.Log.Output
import NextOffer.Settings.Files

/-! # Inputs of commands

The settings and the records that a command works on. When they cannot be had the command
is refused with the reason.
-/

namespace NextOffer

variable {m : Type → Type} [Monad m]

namespace Settings

/-- The settings for a command, which is refused when there are none. -/
def loadOrRefuse (config : Option String) : Job m Settings := do
  match ← (load (config.map FilePath.ofText)).run with
  | .ok settings => return settings
  | .error (.missing path) => Job.refuse (SettingsFault.missing path).message
  | .error fault => Job.refuse s!"Config validation failed: {fault.message}"

def loadAndPrepare (config : Option String) : Job m Settings := do
  let settings ← loadOrRefuse config
  Log.prepare settings.log
  return settings

end Settings

namespace Loading

/-- The given path, or a seed file. -/
def pick (given : Option String) (settings : Settings) (seed : Places → String) : FilePath :=
  match given with
  | some text => FilePath.ofText text
  | none => settings.places.seedPath (seed settings.places)

/-- Load a file for a command, which is refused when that fails, and log it. -/
def orRefuse {α : Type} (noun : String) (settings : Settings) (path : FilePath)
    (load : FilePath → Option String → Except LoadFault α) (note : α → Log.Record) :
    Job m α := do
  match load path (← Job.read? path) with
  | .error fault =>
      if fault.isTooDeep then Job.crash (.load fault)
      else Job.refuse s!"Could not load {noun}:\n{fault.message}"
  | .ok loaded => do
      Log.record settings.log [note loaded]
      return loaded

def rulesFor (settings : Settings) (given : Option String) : Job m (List Rule) :=
  let path := pick given settings (·.rulesFile)
  orRefuse "rules" settings path rules fun loaded => loadedNote loaded.length "rule" path

def productsFor (settings : Settings) (given : Option String) : Job m (List Product) :=
  let path := pick given settings (·.productsFile)
  orRefuse "products" settings path products fun loaded => loadedNote loaded.length "product" path

def profileFor (settings : Settings) (given : Option String) : Job m Profile :=
  let path := pick given settings (·.profileFile)
  orRefuse "profile" settings path profile fun loaded => loadedProfileNote loaded path

def eventsFor (settings : Settings) (given : Option String) : Job m (List Event) :=
  let path := pick given settings (·.eventsFile)
  orRefuse "events" settings path events fun loaded => loadedNote loaded.length "event" path

end Loading

end NextOffer
