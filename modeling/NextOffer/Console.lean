import NextOffer.Host

/-! # Consoles

A host that is a plain value: a disk, and what was written to the outputs.
-/

namespace NextOffer

structure Console where
  disk : Disk := {}
  output : String := ""
  errors : String := ""
  deriving DecidableEq, Repr

namespace Console

/-- Change the disk, which stays as it was on a fault. -/
def alter (change : Disk → Except DiskFault Disk) : StateM Console (Except DiskFault Unit) :=
  fun console =>
    match change console.disk with
    | .ok disk => (.ok (), { console with disk })
    | .error fault => (.error fault, console)

def host (around : Surroundings) : Host (StateM Console) where
  toSurroundings := around
  look path := fun console => (console.disk.look path, console)
  createDirectory path := alter (·.createDirectory path)
  write path text := alter (·.write path text)
  append path text := alter (·.append path text)
  print text := fun console => ((), { console with output := console.output ++ text })
  warn text := fun console => ((), { console with errors := console.errors ++ text })

def run {α : Type} (console : Console) (around : Surroundings)
    (job : Job (StateM Console) α) : Except Halt α × Console :=
  job (host around) console

end Console

end NextOffer
