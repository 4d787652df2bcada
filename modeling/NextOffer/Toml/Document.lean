import NextOffer.Text.Columns
import NextOffer.Toml.Lexical

/-! # Documents of TOML

A document is a sequence of statements, each on a line of its own: an assignment below
the current header, or a header of a table or of the next table in an array. Statements
build one tree. Two sets of paths guard it: a fixed path holds an inline table or an
array, and nothing may be added below it; a closed path has been declared and takes no
second header and no dotted assignment.
-/

namespace NextOffer.Toml

abbrev TablePath := List String

/-- The tree so far and the paths that guard it. -/
structure Document where
  root : Fields Setting := []
  fixed : List TablePath := []
  closed : List TablePath := []
  /-- Paths that dotted assignments of the current table opened; the next header closes
      them. -/
  opened : List TablePath := []

namespace Document

/-- The path, or one above it, is fixed. -/
def isFixed (document : Document) (path : TablePath) : Bool :=
  document.fixed.any (·.isPrefixOf path)

def closeOpened (document : Document) : Document :=
  { document with closed := document.opened ++ document.closed, opened := [] }

/-- Forget the guards of a path and everything below it. -/
def release (document : Document) (path : TablePath) : Document :=
  { document with
    fixed := document.fixed.filter (!path.isPrefixOf ·)
    closed := document.closed.filter (!path.isPrefixOf ·) }

end Document

/-- Change the table at a path. Missing tables are made on the way; an array stands for its
    last table. None when something else is in the way. -/
def changeAt (change : Fields Setting → Option (Fields Setting)) :
    TablePath → Fields Setting → Option (Fields Setting)
  | [], table => change table
  | name :: rest, table =>
      match table.get? name with
      | none => (changeAt change rest []).map fun inner => table.set name (.table inner)
      | some (.table inner) =>
          (changeAt change rest inner).map fun inner => table.set name (.table inner)
      | some (.list items) =>
          match items.getLast? with
          | some (.table inner) => (changeAt change rest inner).map fun inner =>
              table.set name (.list (items.dropLast ++ [.table inner]))
          | _ => none
      | some _ => none

/-- Add a name that a table does not have yet. -/
def addNew (name : String) (value : Setting) (table : Fields Setting) : Option (Fields Setting) :=
  if (table.get? name).isSome then none else some (table.set name value)

/-- Add a table to the array under a name, or begin an array. -/
def addItem (name : String) (table : Fields Setting) : Option (Fields Setting) :=
  match table.get? name with
  | none => some (table.set name (.list [.table []]))
  | some (.list items) => some (table.set name (.list (items ++ [.table []])))
  | some _ => none

def isWhole : Setting → Bool
  | .table _ => true
  | .list _ => true
  | _ => false

/-- The paths above the last name of a key below a header, from the outermost on. -/
def innerPaths (header : TablePath) (key : List String) : List TablePath :=
  (List.range (key.length - 1)).map fun count => header ++ key.take (count + 1)

namespace Document

/-- Assign a value to a key below a header. -/
def assign (document : Document) (header : TablePath) (key : List String) (value : Setting) :
    Option Document := do
  let inner := innerPaths header key
  if inner.any document.closed.contains then failure
  let parent := header ++ key.dropLast
  if document.isFixed parent then failure
  let root ← changeAt (addNew (key.getLast?.getD "") value) parent document.root
  return { document with
    root
    opened := inner ++ document.opened
    fixed := if isWhole value then (header ++ key) :: document.fixed else document.fixed }

def beginTable (document : Document) (path : TablePath) : Option Document := do
  if document.closed.contains path || document.isFixed path then failure
  let root ← changeAt some path document.root
  return { document with root, closed := path :: document.closed }

def beginItem (document : Document) (path : TablePath) : Option Document := do
  if document.isFixed path then failure
  let document := document.release path
  let root ← changeAt (addItem (path.getLast?.getD "")) path.dropLast document.root
  return { document with root, closed := path :: document.closed }

end Document

def assignInline (table : Fields Setting) (fixed : List TablePath) (key : List String)
    (value : Setting) : Option (Fields Setting) :=
  if fixed.any (·.isPrefixOf key) then none
  else changeAt (addNew (key.getLast?.getD "") value) key.dropLast table

mutual

/-- A value in front of a text; `fuel` bounds the depth and the number of parts. -/
def value : Nat → List Char → Option (Setting × List Char)
  | 0, _ => none
  | fuel + 1, cs =>
      if cs.head? = some '"' ∨ cs.head? = some '\'' then
        (string cs).map fun found => (.text found.1, found.2)
      else if "true".toList.isPrefixOf cs then some (.plain (.bool true), cs.drop 4)
      else if "false".toList.isPrefixOf cs then some (.plain (.bool false), cs.drop 5)
      else if cs.head? = some '[' then do
        let rest ← skipLines cs.length cs.tail
        if rest.head? = some ']' then return (.list [], rest.tail)
        let (items, rest) ← items fuel rest
        return (.list items, rest)
      else if cs.head? = some '\x7b' then do
        let rest := skipBlanks cs.tail
        if rest.head? = some '\x7d' then return (.table [], rest.tail)
        let (entries, rest) ← entries fuel [] [] rest
        return (.table entries, rest)
      else
        match date? cs with
        | some found => found.map fun found => (.moment found.1, found.2)
        | none =>
            match clock? cs with
            | some rest => some (.moment .time, rest)
            | none => (number? cs).map fun found => (.plain (.number found.1), found.2)

/-- Items up to the closing bracket; a comma may stand before it. -/
def items : Nat → List Char → Option (List Setting × List Char)
  | 0, _ => none
  | fuel + 1, cs => do
      let (item, rest) ← value fuel cs
      let rest ← skipLines rest.length rest
      if rest.head? = some ']' then return ([item], rest.tail)
      if rest.head? ≠ some ',' then failure
      let rest ← skipLines rest.length rest.tail
      if rest.head? = some ']' then return ([item], rest.tail)
      let (others, rest) ← items fuel rest
      return (item :: others, rest)

/-- Assignments up to the closing brace, added to a table with fixed paths. -/
def entries : Nat → Fields Setting → List TablePath → List Char →
    Option (Fields Setting × List Char)
  | 0, _, _, _ => none
  | fuel + 1, table, fixed, cs => do
      let (path, rest) ← key cs
      if rest.head? ≠ some '=' then failure
      let (item, rest) ← value fuel (skipBlanks rest.tail)
      let table ← assignInline table fixed path item
      let rest := skipBlanks rest
      if rest.head? = some '\x7d' then return (table, rest.tail)
      if rest.head? ≠ some ',' then failure
      entries fuel table (if isWhole item then path :: fixed else fixed) (skipBlanks rest.tail)

end

/-- One statement in front of a text, below a header. -/
def statement (document : Document) (header : TablePath) (cs : List Char) :
    Option (Document × TablePath × List Char) :=
  if "[[".toList.isPrefixOf cs then do
    let (path, rest) ← key (skipBlanks (cs.drop 2))
    let document ← document.closeOpened.beginItem path
    if "]]".toList.isPrefixOf rest then return (document, path, rest.drop 2) else none
  else if cs.head? = some '[' then do
    let (path, rest) ← key (skipBlanks cs.tail)
    let document ← document.closeOpened.beginTable path
    if rest.head? = some ']' then return (document, path, rest.tail) else none
  else if cs = [] ∨ cs.head? = some '#' ∨ cs.head? = some '\n' then some (document, header, cs)
  else do
    let (path, rest) ← key cs
    if rest.head? ≠ some '=' then failure
    let (item, rest) ← value (2 * rest.length + 2) (skipBlanks rest.tail)
    return (← document.assign header path item, header, rest)

/-- Statements line by line; `fuel` bounds the number of lines. -/
def statements : Nat → Document → TablePath → List Char → Option Document
  | 0, _, _, _ => none
  | fuel + 1, document, header, cs => do
      let (document, header, rest) ← statement document header (skipBlanks cs)
      let rest ← skipComment (skipBlanks rest)
      match rest with
      | [] => return document
      | c :: rest => if c = '\n' then statements fuel document header rest else none

def parse? (text : String) : Option (Fields Setting) :=
  let cs := Text.joinLineEnds text.toList
  (statements (cs.length + 1) {} [] cs).map (·.root)

end NextOffer.Toml
