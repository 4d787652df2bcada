import NextOffer.Calendar.Iso
import NextOffer.Loading

/-! # Faults

Everything that can go wrong, with its wording.
-/

namespace NextOffer

namespace DateFault

/-- A span of time in microseconds as its days, the seconds of the last of them and the
    microseconds of the last of those. -/
def spanText (micros : Int) : String :=
  let parts := [("days", micros / 86400000000), ("seconds", micros / 1000000 % 86400),
    ("microseconds", micros % 1000000)]
  let shown := (parts.filter (·.2 ≠ 0)).map fun part => s!"{part.1}={part.2}"
  "datetime.timedelta(" ++ ", ".intercalate shown ++ ")"

def message : DateFault → String
  | unreadable text => s!"Invalid isoformat string: {Text.quoted text}"
  | yearOutOfRange year => s!"year {year} is out of range"
  | monthOutOfRange => "month must be in 1..12"
  | dayOutOfRange => "day is out of range for month"
  | hourOutOfRange => "hour must be in 0..23"
  | minuteOutOfRange => "minute must be in 0..59"
  | secondOutOfRange => "second must be in 0..59"
  | offsetOutOfRange micros =>
      "offset must be a timedelta strictly between -timedelta(hours=24) and " ++
        s!"timedelta(hours=24), not {spanText micros}."

end DateFault

inductive BatchFault where
  | listExpected (argument kind : String)
  | notIterable (kind : String)
  | noField (kind field : String)
  deriving DecidableEq, Repr

namespace BatchFault

def message : BatchFault → String
  | listExpected argument kind => s!"{argument} must be a list, got {kind}."
  | notIterable kind => s!"'{kind}' object is not iterable"
  | noField kind field => s!"'{kind}' object has no attribute '{field}'"

end BatchFault

inductive DiskFault where
  | missing (path : FilePath)
  | exists (path : FilePath)
  | notDirectory (path : FilePath)
  | isDirectory (path : FilePath)
  | nameTooLong (path : FilePath)
  | nullCharacter
  deriving DecidableEq, Repr

namespace DiskFault

def message : DiskFault → String
  | missing path => s!"[Errno 2] No such file or directory: {Text.quoted path.text}"
  | .exists path => s!"[Errno 17] File exists: {Text.quoted path.text}"
  | notDirectory path => s!"[Errno 20] Not a directory: {Text.quoted path.text}"
  | isDirectory path => s!"[Errno 21] Is a directory: {Text.quoted path.text}"
  | nameTooLong path => s!"[Errno 36] File name too long: {Text.quoted path.text}"
  | nullCharacter => "embedded null byte"

end DiskFault

inductive Fault where
  | arithmetic (cause : ArithmeticFault)
  | batch (cause : BatchFault)
  | date (cause : DateFault)
  | load (cause : LoadFault)
  | disk (cause : DiskFault)
  | invalid (report : Schema.Report)
  | contextExpected (kind : String)
  | unknownExample (name : String)
  | unknownDecision (word : String)
  /-- A point in time whose date in universal time is out of range. -/
  | timeOutOfRange
  /-- A record holds values inside one another on too many levels for a dump. -/
  | tooDeep

namespace Fault

def exampleNames : List String := Event.examples.names.mergeSort fun a b => decide (a ≤ b)

def message : Fault → String
  | arithmetic cause => cause.message
  | batch cause => cause.message
  | date cause => cause.message
  | load cause => cause.message
  | disk cause => cause.message
  | invalid report => report.message
  | contextExpected kind => s!"context must be a mapping, got {kind}."
  | unknownExample name =>
      s!"Unknown example '{name}'. Must be one of {(Json.Value.strings exampleNames).inspect}."
  | unknownDecision word => s!"{Text.quoted word} is not a valid Decision"
  | timeOutOfRange => "date value out of range"
  | tooDeep => "Maximum serialization depth exceeded"

instance : MonadLift (Except ArithmeticFault) (Except Fault) where
  monadLift result := result.mapError .arithmetic

end Fault

end NextOffer
