/-! # Runs and insertion

The beginnings of a stable sort for any comparison, also one that is no order, as with a
NaN. A run is a start of a list that is sorted already, or strictly sorted the other way
round. Further items are inserted into a run by halving it.
-/

namespace NextOffer.Sorting

variable {α : Type u}

/-- The longest start of a list that continues a chain, and the rest. -/
def chain (follows : α → α → Bool) (previous : α) : List α → List α × List α
  | [] => ([], [])
  | item :: rest =>
      if follows previous item then
        let found := chain follows item rest
        (item :: found.1, found.2)
      else ([], item :: rest)

/-- The run at the start of a list, in its sorted direction, and the rest. -/
def firstRun (less : α → α → Bool) : List α → List α × List α
  | [] => ([], [])
  | [item] => ([item], [])
  | first :: second :: rest =>
      if less second first then
        let found := chain (fun previous item => less item previous) second rest
        ((first :: second :: found.1).reverse, found.2)
      else
        let found := chain (fun previous item => !less item previous) second rest
        (first :: second :: found.1, found.2)

/-- Insert an item by comparing it with the middle one: before it if it is less, else
    behind it. -/
def insert (less : α → α → Bool) (item : α) (sorted : List α) : List α :=
  match _h : sorted.drop (sorted.length / 2) with
  | [] => [item]
  | middle :: above =>
      let below := sorted.take (sorted.length / 2)
      if less item middle then insert less item below ++ middle :: above
      else below ++ middle :: insert less item above
termination_by sorted.length
decreasing_by
  all_goals
    have := congrArg List.length _h
    simp at this ⊢
    omega

def insertAll (less : α → α → Bool) (sorted : List α) (items : List α) : List α :=
  items.foldl (fun sorted item => insert less item sorted) sorted

end NextOffer.Sorting
