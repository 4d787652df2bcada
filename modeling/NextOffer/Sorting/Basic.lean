import NextOffer.Sorting.Merge

/-! # Sorting by runs

A stable sort that defines its result for any comparison, also one that is no order, as
with a NaN. A list is cut into runs, short ones are made longer by insertion, and
neighbouring runs are merged so that the merges come close to a balanced tree.
-/

namespace NextOffer.Sorting

variable {α : Type u}

/-- A run, and how deep in a balanced tree the boundary in front of it lies. -/
structure Run (α : Type u) where
  items : List α
  power : Nat

/-- Runs that wait to be merged, the last one first, and how many wins in a row have to
    come before stretches. -/
structure Pending (α : Type u) where
  runs : List (Run α) := []
  patience : Nat := payingStretch

/-- The least length of a run: a list is halved until fewer than 64 items are left, and one
    more counts if an item was lost on the way. -/
def leastRun (size : Nat) (lost : Bool) : Nat :=
  if size < 64 then size + lost.toNat
  else leastRun (size / 2) (lost || decide (size % 2 = 1))
termination_by size
decreasing_by omega

/-- The first binary digit in which two fractions of twice a size differ; `fuel` bounds
    their number. -/
def boundaryPower (size : Nat) : Nat → Nat → Nat → Nat
  | 0, _, _ => 1
  | fuel + 1, a, b =>
      if a / size ≠ b / size then 1 else boundaryPower size fuel (2 * a) (2 * b) + 1

/-- Merge the last two runs as long as the boundary between them lies deeper than the next. -/
def settle (less : α → α → Bool) (power : Nat) (patience : Nat) :
    List (Run α) → Pending α
  | top :: below :: rest =>
      if power < top.power then
        let found := mergeRuns less patience below.items top.items
        settle less power found.2 (⟨found.1, below.power⟩ :: rest)
      else ⟨top :: below :: rest, patience⟩
  | runs => ⟨runs, patience⟩
termination_by runs => runs.length

/-- Add a run behind the others of a list of some size; `start` items are in front of it. -/
def Pending.add (less : α → α → Bool) (size start : Nat) (pending : Pending α)
    (items : List α) : Pending α :=
  match pending.runs with
  | [] => { pending with runs := [⟨items, 0⟩] }
  | top :: rest =>
      let middle := 2 * start - top.items.length
      let next := 2 * start + items.length
      let power := boundaryPower size size middle next
      let settled := settle less power pending.patience (top :: rest)
      { settled with runs := ⟨items, power⟩ :: settled.runs }

/-- Cut a list into runs and merge on the way; `fuel` bounds the number of runs. -/
def collect (less : α → α → Bool) (size : Nat) : Nat → Pending α → List α → Pending α
  | 0, pending, _ => pending
  | fuel + 1, pending, items =>
      if items.isEmpty then pending
      else
        let found := firstRun less items
        let missing := leastRun size false - found.1.length
        let run := insertAll less found.1 (found.2.take missing)
        collect less size fuel (pending.add less size (size - items.length) run)
          (found.2.drop missing)

/-- Merge all runs. The middle one of the last three goes with the shorter neighbour. -/
def mergeAll (less : α → α → Bool) (patience : Nat) : List (Run α) → List α
  | [] => []
  | [run] => run.items
  | [top, below] => (mergeRuns less patience below.items top.items).1
  | top :: middle :: bottom :: rest =>
      if bottom.items.length < top.items.length then
        let found := mergeRuns less patience bottom.items middle.items
        mergeAll less found.2 (top :: ⟨found.1, bottom.power⟩ :: rest)
      else
        let found := mergeRuns less patience middle.items top.items
        mergeAll less found.2 (⟨found.1, middle.power⟩ :: bottom :: rest)
termination_by runs => runs.length

def sort (less : α → α → Bool) (items : List α) : List α :=
  let pending := collect less items.length items.length {} items
  mergeAll less pending.patience pending.runs

end NextOffer.Sorting
