import NextOffer.Host
import NextOffer.Log.Line
import NextOffer.Settings.Basic

/-! # Where log lines go

Every record of the wanted severity becomes a line at the output for errors, and one in
the log file if there is one.
-/

namespace NextOffer.Log

variable {m : Type → Type} [Monad m]

/-- The log file, unless there is none. -/
def file? (settings : LogSettings) : Option FilePath :=
  if settings.file = "" then none else some (FilePath.ofText settings.file)

def wanted (settings : LogSettings) (record : Record) : Bool :=
  settings.level.rank ≤ record.level.rank

def lineOf (settings : LogSettings) (time : Timestamp) (record : Record) : String :=
  let timeText := time.universalText?.getD time.text
  if settings.json then record.jsonLine timeText else record.plainLine timeText

/-- Make the log file ready together with the directories above it. -/
def prepare (settings : LogSettings) : Job m Unit :=
  match file? settings with
  | none => return ()
  | some path => do
      Job.makeDirectories path.parent
      Job.append path ""

def emit (settings : LogSettings) (line : String) : Job m Unit := do
  Job.note line
  match file? settings with
  | none => return ()
  | some path => Job.append path (line ++ "\n")

def record (settings : LogSettings) (records : List Record) : Job m Unit := do
  let host ← read
  (records.filter (wanted settings)).forM fun record =>
    emit settings (lineOf settings host.clock record)

end NextOffer.Log
