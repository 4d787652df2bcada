import NextOffer.FilePath
import NextOffer.Json.Parser
import NextOffer.Log.Record
import NextOffer.Product
import NextOffer.Profile
import NextOffer.Rule
import NextOffer.Text.Columns

/-! # Loading records from files

A file of rules, products or events holds an array, a file of a profile an object.
Entries of an array whose names all begin with `_comment` are documentation. Either every
record is valid and all are returned in order, or the failures are listed by number.
-/

namespace NextOffer

inductive LoadFault where
  | missing (path : FilePath)
  | unreadable (file : String) (error : Json.ParseError)
  | arrayExpected (path : FilePath)
  | objectExpected (path : FilePath)
  /-- Records that failed, each with its number among the records. -/
  | invalidRecords (model file : String) (failures : List (Nat × Schema.Report))
  | invalidProfile (file : String) (report : Schema.Report)
  | duplicate (noun id : String) (index : Nat) (file : String)

namespace LoadFault

def shownFailures : Nat := 10

/-- The failures that are listed, and how many more there are. -/
def failureLines (failures : List (Nat × Schema.Report)) : List String :=
  (failures.take shownFailures).map (fun failure => s!"  #{failure.1}: {failure.2.message}") ++
    if shownFailures < failures.length then
      [s!"  … and {failures.length - shownFailures} more"]
    else []

/-- The file has arrays or objects on too many levels, which ends a program. -/
def isTooDeep : LoadFault → Bool
  | unreadable _ error => error.flaw = .arrayTooDeep || error.flaw = .objectTooDeep
  | _ => false

def message : LoadFault → String
  | missing path => s!"File not found: {path.text}"
  | unreadable file error =>
      if error.flaw.isExcess then error.message
      else s!"JSON parse error in {file}: {error.message}"
  | arrayExpected path => s!"File must contain a JSON array: {path.text}"
  | objectExpected path => s!"Profile file must contain a JSON object: {path.text}"
  | invalidRecords model file failures =>
      "\n".intercalate
        (s!"{failures.length} {model} record(s) failed validation in {file}:" ::
          failureLines failures)
  | invalidProfile file report => s!"Profile failed validation in {file}:\n{report.message}"
  | duplicate noun id index file => s!"Duplicate {noun} id '{id}' at index {index} in {file}."

end LoadFault

namespace Loading

open Json Schema

/-- Levels of arrays and objects that a file may have. -/
def levels : Nat := 985

/-- The value that a file holds. None stands for a file that does not exist. -/
def readValue (path : FilePath) (content : Option String) : Except LoadFault Value :=
  match content with
  | none => .error (.missing path)
  | some content =>
      (parseWithin levels (String.ofList (Text.lineFeeds content.toList))).mapError
        (.unreadable path.name ·)

def isCommentName (name : String) : Bool := "_comment".toList.isPrefixOf name.toList

/-- Documentation among the records: an object with comments only. -/
def isComment : Value → Bool
  | .object entries => !entries.isEmpty && entries.all fun entry => isCommentName entry.1
  | _ => false

/-- The records of a file, without documentation. -/
def readArray (path : FilePath) (content : Option String) : Except LoadFault (List Value) := do
  match ← readValue path content with
  | .array items => return items.filter (!isComment ·)
  | _ => throw (.arrayExpected path)

/-- The failures among records, numbered from `index` on. -/
def failuresFrom {α : Type} (model : String) (read : Reader α) :
    Nat → List Value → List (Nat × Report)
  | _, [] => []
  | index, record :: rest =>
      match (read record).report model with
      | .ok _ => failuresFrom model read (index + 1) rest
      | .error report => (index, report) :: failuresFrom model read (index + 1) rest

def validRecords {α : Type} (read : Reader α) (records : List Value) : List α :=
  records.filterMap fun record =>
    match read record with
    | .accepted value => some value
    | .rejected _ => none

/-- Every record, or all failures. -/
def validate {α : Type} (model : String) (read : Reader α) (path : FilePath)
    (records : List Value) : Except LoadFault (List α) :=
  match failuresFrom model read 0 records with
  | [] => .ok (validRecords read records)
  | failures => .error (.invalidRecords model path.name failures)

/-- The first id, from `index` on, that is among the ids before it. -/
def duplicateFrom? (seen : List String) : Nat → List String → Option (Nat × String)
  | _, [] => none
  | index, id :: rest =>
      if id ∈ seen then some (index, id) else duplicateFrom? (id :: seen) (index + 1) rest

def requireDistinct (noun : String) (path : FilePath) (ids : List String) :
    Except LoadFault Unit :=
  match duplicateFrom? [] 0 ids with
  | none => .ok ()
  | some (index, id) => .error (.duplicate noun id index path.name)

def rules (path : FilePath) (content : Option String) : Except LoadFault (List Rule) := do
  let rules ← validate "Rule" Rule.reader path (← readArray path content)
  requireDistinct "rule" path (rules.map (·.id))
  return rules

def products (path : FilePath) (content : Option String) : Except LoadFault (List Product) := do
  let products ← validate "Product" Product.reader path (← readArray path content)
  requireDistinct "product" path (products.map (·.id))
  return products

def events (path : FilePath) (content : Option String) : Except LoadFault (List Event) := do
  validate "Event" Event.reader path (← readArray path content)

def profile (path : FilePath) (content : Option String) : Except LoadFault Profile := do
  match ← readValue path content with
  | .object entries =>
      ((Profile.reader (.object entries)).report "Profile").mapError
        (.invalidProfile path.name ·)
  | _ => throw (.objectExpected path)

def logger : String := "rule_studio.ingestion.loaders"

def loadedNote (count : Nat) (noun : String) (path : FilePath) : Log.Record :=
  Log.Record.info logger s!"Loaded {count} {noun}(s) from {path.name}"

def loadedProfileNote (profile : Profile) (path : FilePath) : Log.Record :=
  Log.Record.info logger s!"Loaded profile {profile.customerId} from {path.name}"

end Loading

end NextOffer
