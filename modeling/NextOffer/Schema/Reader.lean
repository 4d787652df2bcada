import NextOffer.Calendar.Data
import NextOffer.Json.Display
import NextOffer.Schema.Issue
import NextOffer.Schema.Numeral

/-! # Reading records

A reader turns a JSON value into a value of the domain or lists everything that is wrong
with it. Readers combine so that every part is read, whatever else failed. Scalars are
lenient: a number may come as text, and an integer as a whole floating point value.
-/

namespace NextOffer.Schema

/-- A value, or all issues with the input. -/
inductive Checked (α : Type u) where
  | accepted (value : α)
  | rejected (issues : List Issue)
  deriving DecidableEq

/-- From a JSON value to a value of the domain. -/
abbrev Reader (α : Type u) := Json.Value → Checked α

namespace Checked

variable {α : Type u} {β : Type v}

def reject (problem : Problem) : Checked α := .rejected [⟨[], problem⟩]

def map (f : α → β) : Checked α → Checked β
  | .accepted value => .accepted (f value)
  | .rejected issues => .rejected issues

def bind : Checked α → (α → Checked β) → Checked β
  | .accepted value, next => next value
  | .rejected issues, _ => .rejected issues

/-- Join two checks: the issues of both count. -/
def apply : Checked (α → β) → Checked α → Checked β
  | .accepted f, .accepted value => .accepted (f value)
  | .accepted _, .rejected issues => .rejected issues
  | .rejected issues, .accepted _ => .rejected issues
  | .rejected issues, .rejected more => .rejected (issues ++ more)

instance : Applicative Checked where
  pure := .accepted
  seq f x := apply f (x ())

/-- The same result seen from one level further out. -/
def under (step : String) : Checked α → Checked α
  | .accepted value => .accepted value
  | .rejected issues => .rejected (issues.map (Issue.under step))

/-- The value, or a report about a model. -/
def report (model : String) : Checked α → Except Report α
  | .accepted value => .ok value
  | .rejected issues => .error ⟨model, issues⟩

end Checked

structure Key where
  name : String
  preferred : String
  deriving DecidableEq, Repr

namespace Key

def plain (name : String) : Key := ⟨name, name⟩

/-- The value of a field and the spelling it came under; the preferred one wins. -/
def find? (key : Key) (entries : Fields Json.Value) : Option (String × Json.Value) :=
  match entries.get? key.preferred with
  | some value => some (key.preferred, value)
  | none => (entries.get? key.name).map fun value => (key.name, value)

end Key

namespace Reader

variable {α : Type u}

def required (entries : Fields Json.Value) (key : Key) (read : Reader α) : Checked α :=
  match key.find? entries with
  | some (spelling, value) => (read value).under spelling
  | none => .rejected [⟨[key.preferred], .missing⟩]

def optional (entries : Fields Json.Value) (key : Key) (default : α) (read : Reader α) :
    Checked α :=
  match key.find? entries with
  | some (spelling, value) => (read value).under spelling
  | none => .accepted default

/-- Null, or a value. -/
def nullable (read : Reader α) : Reader (Option α)
  | .null => .accepted none
  | value => (read value).map some

/-- An object, read by its fields. -/
def record (model : String) (read : Fields Json.Value → Checked α) : Reader α
  | .object entries => read entries
  | _ => .reject (.recordExpected model)

/-- Items in order, each at its index. -/
def listFrom (read : Reader α) : Nat → List Json.Value → Checked (List α)
  | _, [] => .accepted []
  | index, item :: rest =>
      ((read item).under (toString index)).map List.cons |>.apply (listFrom read (index + 1) rest)

def list (read : Reader α) : Reader (List α)
  | .array items => listFrom read 0 items
  | _ => .reject .listExpected

/-- Entries in order, each at its name. -/
def entriesFrom (read : Reader α) : Fields Json.Value → Checked (Fields α)
  | [] => .accepted []
  | (name, value) :: rest =>
      (((read value).under name).map fun found => ((name, found) :: ·)).apply
        (entriesFrom read rest)

def mapping (read : Reader α) : Reader (Fields α)
  | .object entries => entriesFrom read entries
  | _ => .reject .mappingExpected

def anything : Reader Json.Value := .accepted

def text : Reader String
  | .string text => .accepted text
  | _ => .reject .textExpected

def word (words : List String) (ofWord? : String → Option α) : Reader α
  | .string text =>
      match ofWord? text with
      | some value => .accepted value
      | none => .reject (.wordExpected words)
  | _ => .reject (.wordExpected words)

def yesWords : List String := ["1", "true", "t", "yes", "y", "on"]

def noWords : List String := ["0", "false", "f", "no", "n", "off"]

/-- A truth value: also zero and one, and words in any case. Numbers that are no integers
    of 64 bits are not even tried. -/
def truth : Reader Bool
  | .bool value => .accepted value
  | .number x =>
      if x.isZero then .accepted false
      else if x.same 1 then .accepted true
      else if x.isWord then .reject .truthUnreadable
      else .reject .truthExpected
  | .string text =>
      let word := String.ofList (text.toList.map Char.toLower)
      if word ∈ yesWords then .accepted true
      else if word ∈ noWords then .accepted false
      else .reject .truthUnreadable
  | _ => .reject .truthExpected

/-- An integer: also truth values, whole floating point values of 64 bits, and texts. -/
def integer : Reader Int
  | .bool value => .accepted (if value then 1 else 0)
  | .number (.int n) => .accepted n
  | .number (.real x) =>
      if !x.isFinite then .reject .integerNotFinite
      else if !x.isIntegral then .reject .integerFractional
      else if (Number.real x).isWord then .accepted x.truncate
      else .reject .integerTooWide
  | .string text =>
      match integerNumeral? text with
      | some n => if isLongNumeral n then .reject .integerTooWide else .accepted n
      | none => .reject .integerUnreadable
  | _ => .reject .integerExpected

/-- A floating point value: also integers within range, truth values and texts. -/
def real : Reader Binary64
  | .bool value => .accepted (Binary64.ofInt (if value then 1 else 0))
  | .number x =>
      match x.toBinary64? with
      | .ok value => .accepted value
      | .error _ => .reject .numberExpected
  | .string text =>
      match realNumeral? text with
      | some value => .accepted value
      | none => .reject .numberUnreadable
  | _ => .reject .numberExpected

/-- A number of either kind. Numbers keep their kind; anything else is read as an integer
    if it can be, then as a floating point value. -/
def number : Reader Number
  | .number x => .accepted x
  | value =>
      match integer value, real value with
      | .accepted n, _ => .accepted (.int n)
      | _, .accepted x => .accepted (.real x)
      | .rejected issues, .rejected more =>
          .rejected (issues.map (Issue.under "int") ++ more.map (Issue.under "float"))

/-- A point in time that was found, or what is wrong with it. -/
def ofMoment : Except Calendar.MomentFault Timestamp → Checked Timestamp
  | .ok t => .accepted t
  | .error (.unreadable reason) => .reject (.dateUnreadable reason)
  | .error fault => .reject (.momentUnreadable fault.message)

/-- A point in time: a text, or a count of seconds as a number within the range of floating
    point values. -/
def moment : Reader Timestamp
  | .number x =>
      match x.toBinary64? with
      | .ok _ => ofMoment (Timestamp.ofNumber x)
      | .error _ => .reject .momentExpected
  | .string text => ofMoment (Timestamp.ofDataText text)
  | _ => .reject .momentExpected

end Reader

end NextOffer.Schema
