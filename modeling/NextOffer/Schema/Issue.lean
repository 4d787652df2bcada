/-! # What is wrong with a record

An issue is a problem at a place inside a value. A report lists all issues of one value
in the order of the fields.
-/

namespace NextOffer.Schema

inductive Problem where
  | missing
  | textExpected
  | truthExpected
  | truthUnreadable
  | integerExpected
  | integerUnreadable
  | integerFractional
  | integerTooWide
  | integerNotFinite
  | numberExpected
  | numberUnreadable
  | listExpected
  | mappingExpected
  | recordExpected (model : String)
  | memberExpected
  | wordExpected (words : List String)
  | tagMissing
  | tagUnknown (tag : String) (known : List String)
  | momentExpected
  | momentUnreadable (reason : String)
  | dateUnreadable (reason : String)
  | refused (reason : String)
  deriving DecidableEq, Repr

def quotedWords (words : List String) : List String := words.map fun word => s!"'{word}'"

/-- Words in a choice: commas between them and `or` before the last. -/
def choice (words : List String) : String :=
  match (quotedWords words).reverse with
  | [] => ""
  | [only] => only
  | last :: before => ", ".intercalate before.reverse ++ " or " ++ last

namespace Problem

def code : Problem → String
  | missing => "missing"
  | textExpected => "string_type"
  | truthExpected => "bool_type"
  | truthUnreadable => "bool_parsing"
  | integerExpected => "int_type"
  | integerUnreadable => "int_parsing"
  | integerFractional => "int_from_float"
  | integerTooWide => "int_parsing_size"
  | integerNotFinite => "finite_number"
  | numberExpected => "float_type"
  | numberUnreadable => "float_parsing"
  | listExpected => "list_type"
  | mappingExpected => "dict_type"
  | recordExpected _ => "model_type"
  | memberExpected => "model_attributes_type"
  | wordExpected _ => "enum"
  | tagMissing => "union_tag_not_found"
  | tagUnknown _ _ => "union_tag_invalid"
  | momentExpected => "datetime_type"
  | momentUnreadable _ => "datetime_parsing"
  | dateUnreadable _ => "datetime_from_date_parsing"
  | refused _ => "value_error"

def message : Problem → String
  | missing => "Field required"
  | textExpected => "Input should be a valid string"
  | truthExpected => "Input should be a valid boolean"
  | truthUnreadable => "Input should be a valid boolean, unable to interpret input"
  | integerExpected => "Input should be a valid integer"
  | integerUnreadable => "Input should be a valid integer, unable to parse string as an integer"
  | integerFractional => "Input should be a valid integer, got a number with a fractional part"
  | integerTooWide => "Unable to parse input string as an integer, exceeded maximum size"
  | integerNotFinite => "Input should be a finite number"
  | numberExpected => "Input should be a valid number"
  | numberUnreadable => "Input should be a valid number, unable to parse string as a number"
  | listExpected => "Input should be a valid list"
  | mappingExpected => "Input should be a valid dictionary"
  | recordExpected model => s!"Input should be a valid dictionary or instance of {model}"
  | memberExpected => "Input should be a valid dictionary or object to extract fields from"
  | wordExpected words => s!"Input should be {choice words}"
  | tagMissing => "Unable to extract tag using discriminator 'type'"
  | tagUnknown tag known =>
      s!"Input tag '{tag}' found using 'type' does not match any of the expected tags: " ++
        ", ".intercalate (quotedWords known)
  | momentExpected => "Input should be a valid datetime"
  | momentUnreadable reason => s!"Input should be a valid datetime, {reason}"
  | dateUnreadable reason => s!"Input should be a valid datetime or date, {reason}"
  | refused reason => s!"Value error, {reason}"

end Problem

/-- A problem and where it is: names and indices from the outside in. -/
structure Issue where
  place : List String
  problem : Problem
  deriving DecidableEq, Repr

namespace Issue

/-- The same issue seen from one level further out. -/
def under (step : String) (issue : Issue) : Issue := { issue with place := step :: issue.place }

/-- A step of a place; one with a dot of its own stands between backticks. -/
def stepText (step : String) : String :=
  if '.' ∈ step.toList then s!"\x60{step}\x60" else step

/-- The lines of an issue; an issue of the whole value has no place. -/
def text (issue : Issue) : String :=
  (if issue.place = [] then "" else ".".intercalate (issue.place.map stepText) ++ "\n") ++
    s!"  {issue.problem.message} [type={issue.problem.code}]"

end Issue

structure Report where
  model : String
  issues : List Issue
  deriving DecidableEq, Repr

namespace Report

/-- The report: its count and every issue. -/
def message (report : Report) : String :=
  let count := report.issues.length
  let plural := if count = 1 then "" else "s"
  "\n".intercalate
    (s!"{count} validation error{plural} for {report.model}" :: report.issues.map Issue.text)

end Report

end NextOffer.Schema
