import NextOffer.Json.Display

/-! # Failures in log lines

A record may carry a failure by its message. A further field can stand in its place: three
items, of which the second is the failure and the third the way that led to it. Such items
hold data and so neither a failure nor a way to it; unless both are empty there is nothing
to write.
-/

namespace NextOffer.Log

inductive FailureFault where
  | itemsRequired (kind : String)
  /-- Fewer than three items of a text or a list. -/
  | itemMissing (sequence : String)
  | indexMissing
  | noWay (kind : String)
  | noFailure (kind : String)
  deriving DecidableEq, Repr

namespace FailureFault

def message : FailureFault → String
  | itemsRequired kind => s!"'{kind}' object is not subscriptable"
  | itemMissing sequence => sequence ++ " index out of range"
  | indexMissing => "2"
  | noWay kind => s!"'{kind}' object has no attribute 'tb_frame'"
  | noFailure kind => s!"'{kind}' object has no attribute '__suppress_context__'"

end FailureFault

def failureText (message : String) : String :=
  if message = "" then "ValueError" else "ValueError: " ++ message

/-- The text of a failure and of the way to it. -/
def tracedText : Json.Value → Json.Value → Except FailureFault String
  | .null, .null => .ok "NoneType: None"
  | failure, .null => .error (.noFailure failure.kindName)
  | _, way => .error (.noWay way.kindName)

/-- The text of a value in place of a failure; a void value is no failure. -/
def failureTextOf (value : Json.Value) : Except FailureFault (Option String) :=
  if value.isVoid then .ok none
  else
    match value with
    | .array (_ :: failure :: way :: _) => (tracedText failure way).map some
    | .array _ => .error (.itemMissing "list")
    | .string text =>
        .error (if text.length < 3 then .itemMissing "string" else .noWay "str")
    | .object _ => .error .indexMissing
    | value => .error (.itemsRequired value.kindName)

end NextOffer.Log
