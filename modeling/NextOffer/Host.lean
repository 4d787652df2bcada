import NextOffer.Disk
import NextOffer.Text.Control

/-! # Hosts

What a command needs from the world around it: files, a terminal, a clock, the variables
of the environment and the place where the program is installed. A command ends early when
it is refused, after a message about the reason, or when it crashes with a fault.
-/

namespace NextOffer

/-- What a command finds around it that it does not change. -/
structure Surroundings where
  clock : Timestamp
  /-- The directory of the program. -/
  home : FilePath
  environment : Fields String := []
  /-- The variables in the text of a file of variables, which may refer to those of the
      environment. -/
  variablesOf : Fields String → String → Fields String

structure Host (m : Type → Type) extends Surroundings where
  look : FilePath → m (Except DiskFault (Option Entry))
  createDirectory : FilePath → m (Except DiskFault Unit)
  write : FilePath → String → m (Except DiskFault Unit)
  append : FilePath → String → m (Except DiskFault Unit)
  print : String → m Unit
  warn : String → m Unit

inductive Halt where
  | refused
  | crashed (fault : Fault)

abbrev Job (m : Type → Type) : Type → Type := ReaderT (Host m) (ExceptT Halt m)

namespace Job

variable {m : Type → Type} [Monad m]

def act {α : Type} (action : Host m → m α) : Job m α := fun host => ExceptT.lift (action host)

def crash {α : Type} (fault : Fault) : Job m α := throw (.crashed fault)

def need {α : Type} : Except Fault α → Job m α
  | .ok value => return value
  | .error fault => crash fault

def attempt {α : Type} (action : Host m → m (Except DiskFault α)) : Job m α := do
  match ← act action with
  | .ok result => return result
  | .error fault => crash (.disk fault)

def look (path : FilePath) : Job m (Option Entry) := attempt (·.look path)

/-- Print a line. What data hold for terminals is left out. -/
def say (line : String) : Job m Unit := act (·.print (Text.withoutControls line ++ "\n"))

/-- Print a line for errors. What data hold for terminals is left out. -/
def complain (line : String) : Job m Unit := act (·.warn (Text.withoutControls line ++ "\n"))

def note (line : String) : Job m Unit := act (·.warn (line ++ "\n"))

def refuse {α : Type} (reason : String) : Job m α := do
  complain s!"[ERROR] {reason}"
  throw .refused

def write (path : FilePath) (text : String) : Job m Unit := attempt (·.write path text)

def append (path : FilePath) (text : String) : Job m Unit := attempt (·.append path text)

/-- Make a directory unless there is one. Failing with a missing directory above is
    told apart, since that can be mended. -/
def provide (path : FilePath) : Job m Bool := do
  match ← act (·.createDirectory path) with
  | .ok () => return true
  | .error (.missing _) => return false
  | .error fault =>
      match fault, ← look path with
      | .exists _, some .directory => return true
      | _, _ => crash (.disk fault)

/-- Make a directory below a root with the directories above it. Names come from the
    innermost on. -/
def provideAll (root : String) : List String → Job m Unit
  | [] => return ()
  | name :: above => do
      let path : FilePath := ⟨root, (name :: above).reverse⟩
      unless ← provide path do
        provideAll root above
        unless ← provide path do crash (.disk (.missing path))

def makeDirectories (path : FilePath) : Job m Unit := provideAll path.root path.names.reverse

/-- The text of a file, unless there is none. -/
def read? (path : FilePath) : Job m (Option String) := do
  match ← look path with
  | none => return none
  | some (.file text) => return some text
  | some .directory => crash (.disk (.isDirectory path))

end Job

end NextOffer
