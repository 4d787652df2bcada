import NextOffer.Command.Run
import Std.Time.DateTime.Timestamp

/-! # The program

Commands on the disk and the terminal of the machine.
-/

namespace NextOffer.Machine

/-- The number of a fault on the machine, which some of its actions report negated. -/
def faultNumber (code : UInt32) : UInt32 := if code < 0x80000000 then code else 0 - code

def look (path : FilePath) : IO (Except DiskFault (Option Entry)) := do
  match ← (IO.FS.readFile path.text).toBaseIO with
  | .ok text => return .ok (some (.file text))
  | .error (.noFileOrDirectory _ _ _) => return .ok none
  | .error (.inappropriateType _ code _) =>
      return .ok (if faultNumber code = 21 then some .directory else none)
  | .error (.invalidArgument file code details) =>
      if faultNumber code = 36 then return .error (.nameTooLong path)
      else throw (.invalidArgument file code details)
  | .error error => throw error

/-- An action on a path with the faults that disks have. -/
def onDisk (path : FilePath) (action : IO Unit) : IO (Except DiskFault Unit) := do
  if path.hasNull then return .error .nullCharacter
  match ← action.toBaseIO with
  | .ok () => return .ok ()
  | .error (.noFileOrDirectory _ _ _) => return .error (.missing path)
  | .error (.alreadyExists _ _ _) => return .error (.exists path)
  | .error (.inappropriateType _ code _) =>
      return .error (if faultNumber code = 21 then .isDirectory path else .notDirectory path)
  | .error (.invalidArgument file code details) =>
      if faultNumber code = 36 then return .error (.nameTooLong path)
      else throw (.invalidArgument file code details)
  | .error error => throw error

def append (path : FilePath) (text : String) : IO Unit := do
  (← IO.FS.Handle.mk path.text .append).putStr text

/-- The time in universal time; 1970 when the clock of the machine is out of range. -/
def now : IO Timestamp := do
  let nanoseconds := (← Std.Time.Timestamp.now).toNanosecondsSinceUnixEpoch.val
  let micros := Timestamp.micros (nanoseconds / 1000 % 1000000).toNat
  return (Timestamp.ofUnixSeconds? (nanoseconds / 1000000000) micros
    (some Offset.universal)).getD (.midnight ⟨1970, 1, 1, by decide⟩ (some Offset.universal))

def environment : IO (Fields String) :=
  Overrides.names.filterMapM fun name => do
    return (← IO.getEnv name).map fun value => (name, value)

/-- The variables in lines with an equals sign. Lines without one count for nothing. -/
def variablesOf (text : String) : Fields String :=
  (text.toList.splitOn '\n').filterMap fun line =>
    let name := line.takeWhile (· != '=')
    match line.drop name.length with
    | [] => none
    | _ :: value =>
        some (String.ofList (Text.trim Text.isBlank name),
          String.ofList (Text.trim Text.isBlank value))

def surroundings : IO Surroundings := do
  return {
    clock := ← now
    home := FilePath.ofText (← IO.appPath).toString |>.parent
    environment := ← environment
    variablesOf := fun _ text => variablesOf text }

def host (around : Surroundings) : Host IO where
  toSurroundings := around
  look := look
  createDirectory path := onDisk path (IO.FS.createDir path.text)
  write path text := onDisk path (IO.FS.writeFile path.text text)
  append path text := onDisk path (append path text)
  print := IO.print
  warn := IO.eprint

end NextOffer.Machine

open NextOffer in
/-- Run the command that the arguments choose. The exit code is 2 when they are misused and
    1 when the command ends early. -/
def main (arguments : List String) : IO UInt32 := do
  match Command.ofArguments? arguments with
  | none =>
      IO.eprintln "Unknown command or option."
      return 2
  | some command =>
      match ← command.run (Machine.host (← Machine.surroundings)) with
      | .ok () => return 0
      | .error .refused => return 1
      | .error (.crashed fault) =>
          IO.eprintln fault.message
          return 1
