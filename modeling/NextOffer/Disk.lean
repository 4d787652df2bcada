import NextOffer.Fault
import NextOffer.Fields

/-! # Disks

Files and directories by the places where they stand. A path is walked name by name, and
every place that a walk leaves has to be a directory. The working directory and the
directories above it always exist.
-/

namespace NextOffer

inductive Entry where
  | directory
  | file (text : String)
  deriving DecidableEq, Repr

namespace FilePath

/-- The place one name further. Two dots lead back, but not out of a root. -/
def step (place : FilePath) (name : String) : FilePath :=
  if name ≠ ".." then { place with names := place.names ++ [name] }
  else
    match place.names.getLast? with
    | none => if place.root = "" then { place with names := [".."] } else place
    | some last =>
        if last = ".." then { place with names := place.names ++ [".."] } else place.parent

/-- The place of a path on a disk where every name on the way is a directory. -/
def place (path : FilePath) : FilePath := path.names.foldl step { path with names := [] }

def isInside (place : FilePath) : Bool :=
  place.root == "" && place.names.head? != some ".."

/-- The path holds a character that no file name has. -/
def hasNull (path : FilePath) : Bool := path.text.toList.contains '\x00'

def nameRoom : Nat := 255

def room : Nat := 4095

end FilePath

structure Disk where
  entries : Fields Entry := []
  deriving DecidableEq, Repr

namespace Disk

def at? (disk : Disk) (place : FilePath) : Option Entry :=
  if place.names.all (· == "..") then some .directory else disk.entries.get? place.text

def put (disk : Disk) (place : FilePath) (entry : Entry) : Disk :=
  ⟨disk.entries.set place.text entry⟩

/-- Walk on from a place; `goal` is the path that is looked for. -/
def walk (disk : Disk) (goal place : FilePath) : List String → Except DiskFault FilePath
  | [] => .ok place
  | name :: rest =>
      match disk.at? place with
      | none => .error (.missing goal)
      | some (.file _) => .error (.notDirectory goal)
      | some .directory =>
          if FilePath.nameRoom < name.utf8ByteSize then .error (.nameTooLong goal)
          else disk.walk goal (place.step name) rest

/-- The place that a path leads to. The place itself may be empty. -/
def locate (disk : Disk) (path : FilePath) : Except DiskFault FilePath :=
  if path.hasNull then .error .nullCharacter
  else if FilePath.room < path.text.utf8ByteSize then .error (.nameTooLong path)
  else disk.walk path { path with names := [] } path.names

/-- What a path leads to, unless its names are too long to look for. -/
def look (disk : Disk) (path : FilePath) : Except DiskFault (Option Entry) :=
  match disk.locate path with
  | .ok place => .ok (disk.at? place)
  | .error (.nameTooLong goal) => .error (.nameTooLong goal)
  | .error _ => .ok none

def createDirectory (disk : Disk) (path : FilePath) : Except DiskFault Disk := do
  let place ← disk.locate path
  match disk.at? place with
  | none => return disk.put place .directory
  | some _ => throw (.exists path)

/-- Change the text of a file, which is made when it is absent. -/
def change (disk : Disk) (path : FilePath) (new : String → String) : Except DiskFault Disk := do
  let place ← disk.locate path
  match disk.at? place with
  | none => return disk.put place (.file (new ""))
  | some (.file text) => return disk.put place (.file (new text))
  | some .directory => throw (.isDirectory path)

def write (disk : Disk) (path : FilePath) (text : String) : Except DiskFault Disk :=
  disk.change path fun _ => text

def append (disk : Disk) (path : FilePath) (text : String) : Except DiskFault Disk :=
  disk.change path (· ++ text)

def files (disk : Disk) : Fields String :=
  disk.entries.filterMap fun (name, entry) =>
    match entry with
    | .file text => some (name, text)
    | .directory => none

/-- Put a file at a place together with the directories above it. -/
def install (disk : Disk) (place : FilePath) (text : String) : Disk :=
  let above := (List.range place.names.length).map fun count =>
    { place with names := place.names.take count }
  (above.foldl (fun disk place => disk.put place .directory) disk).put place (.file text)

def ofFiles (files : Fields String) : Disk :=
  files.foldl (fun disk file => disk.install (FilePath.ofText file.1).place file.2) {}

/-- The files below the working directory that are new or differ from those of an older
    disk, by their places. -/
def filesSince (disk old : Disk) : Fields String :=
  let changed := disk.files.filter fun file =>
    (FilePath.ofText file.1).isInside && old.files.get? file.1 != some file.2
  changed.mergeSort fun a b => decide (a.1 ≤ b.1)

end Disk

end NextOffer
