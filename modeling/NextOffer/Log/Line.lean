import NextOffer.Json.Printer
import NextOffer.Log.Failure
import NextOffer.Log.Message
import NextOffer.Log.Record
import NextOffer.Log.Time

/-! # Log lines

A record becomes a line of plain text or one JSON object. The object holds time, level,
logger and message, then a failure if there is one, and then every further field whose
name is neither private nor that of an attribute that all records carry.
-/

namespace NextOffer.Log

inductive LineFault where
  | time (cause : TimeFault)
  /-- A field in place of the way in which a message is made. -/
  | notCallable (kind : String)
  | message (cause : MessageFault)
  | failure (cause : FailureFault)
  /-- A field or a template with an integer that cannot be written. -/
  | writing (cause : ArithmeticFault)
  deriving DecidableEq, Repr

namespace LineFault

def text : LineFault → String
  | time cause => cause.message
  | notCallable kind => s!"'{kind}' object is not callable"
  | message cause => cause.message
  | failure cause => cause.message
  | writing cause => cause.message

end LineFault

/-- A record as a caller makes it: a template with arguments, and further fields. -/
structure Entry where
  /-- Seconds from the start of 1970. -/
  created : Json.Value
  level : String
  logger : String
  template : String
  arguments : List Json.Value := []
  failure : Option String := none
  extra : Fields Json.Value := []

def ownAttributes : List String := [
  "name", "msg", "args", "levelname", "levelno", "pathname", "filename", "module", "exc_info",
  "exc_text", "stack_info", "lineno", "funcName", "created", "msecs", "relativeCreated",
  "thread", "threadName", "processName", "process", "message", "asctime"]

/-- The field is private or one that all records carry. -/
def isOwn (name : String) : Bool :=
  name ∈ ownAttributes || name.toList.head? == some '_'

namespace Entry

/-- An attribute of a record, which a further field of its name replaces. -/
def ownField (entry : Entry) (name : String) (own : Json.Value) : Json.Value :=
  (entry.extra.get? name).getD own

/-- The arguments of a record. A field in their place is a single one, unless it is void. -/
def ownArguments (entry : Entry) : Option Arguments :=
  match entry.extra.get? "args" with
  | some value => if value.isVoid then none else some (.lone value)
  | none => Arguments.ofList? entry.arguments

def messageText (entry : Entry) : Except LineFault String :=
  match entry.extra.get? "getMessage" with
  | some value => .error (.notCallable value.kindName)
  | none =>
      let template := entry.ownField "msg" (.string entry.template)
      if template.isWritable then (fill template.display entry.ownArguments).mapError .message
      else .error (.writing .tooManyDigits)

def ownFailure (entry : Entry) : Except LineFault (Option String) :=
  match entry.extra.get? "exc_info" with
  | some value => (failureTextOf value).mapError .failure
  | none => .ok (entry.failure.map failureText)

/-- The fields of a record in the order of their line. -/
def fields (entry : Entry) : Except LineFault (Fields Json.Value) := do
  let time ← (timeText (entry.ownField "created" entry.created)).mapError .time
  let message ← entry.messageText
  let failure ← entry.ownFailure
  let own : Fields Json.Value := [
    ("ts", .string time),
    ("level", entry.ownField "levelname" (.string entry.level)),
    ("logger", entry.ownField "name" (.string entry.logger)),
    ("msg", .string message)]
  let failed : Fields Json.Value := failure.toList.map fun text => ("exc", .string text)
  return (entry.extra.filter fun field => !isOwn field.1).foldl
    (fun fields field => fields.set field.1 field.2) (own ++ failed)

def jsonLine (entry : Entry) : Except LineFault String := do
  (Json.Form.spaced.render (.object (← entry.fields))).mapError .writing

end Entry

namespace Record

/-- A record at some time as a line of text. -/
def plainLine (record : Record) (time : String) : String :=
  s!"{time} [{record.level.name}] {record.logger}: {record.message}"

/-- A record at some time as one JSON object. -/
def jsonLine (record : Record) (time : String) : String :=
  Json.Form.spaced.text (.object [
    ("ts", .string time),
    ("level", .string record.level.name),
    ("logger", .string record.logger),
    ("msg", .string record.message)])

end Record

end NextOffer.Log
