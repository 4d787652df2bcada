/-! # File paths

A path is normal: no empty names and no single dots. Two slashes at the start, and only
two, are kept apart from one.
-/

namespace NextOffer

/-- A path of names below a root; a relative path has the empty root. -/
structure FilePath where
  root : String
  names : List String
  deriving DecidableEq, Repr

namespace FilePath

def rootOf (slashes : Nat) : String :=
  if slashes = 0 then "" else if slashes = 2 then "//" else "/"

def ofText (text : String) : FilePath :=
  let chars := text.toList
  { root := rootOf (chars.takeWhile (· == '/')).length
    names := ((chars.splitOn '/').filter fun name => name != [] && name != ['.']).map
      String.ofList }

/-- The text of a path; the empty path is a dot. -/
def text (path : FilePath) : String :=
  if path.root = "" ∧ path.names = [] then "."
  else path.root ++ "/".intercalate path.names

/-- A path seen from a directory; a path with a root stands for itself. -/
def join (directory path : FilePath) : FilePath :=
  if path.root = "" then { directory with names := directory.names ++ path.names } else path

def name (path : FilePath) : String := path.names.getLast?.getD ""

def parent (path : FilePath) : FilePath := { path with names := path.names.dropLast }

end FilePath

end NextOffer
