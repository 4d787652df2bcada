import NextOffer.Sorting.Insertion

/-! # Merging runs

Two neighbouring runs are merged from their fronts, or mirrored from their ends, item by
item. Once one run has won several times in a row, whole stretches are moved: a search
doubles its steps until it has passed the end of the stretch and then halves the interval.
How long a run has to win depends on what that brought before.
-/

namespace NextOffer.Sorting

variable {α : Type u}

/-! ## Searching -/

/-- Halve the interval in which a stretch ends. Of an even number of items the later one of
    the two in the middle is tried, or the earlier one from the end. -/
def halve (fromEnd : Bool) (goesFirst : Nat → Bool) (low high : Nat) : Nat :=
  if high ≤ low then low
  else
    let middle := low + (high - low - if fromEnd then 1 else 0) / 2
    if goesFirst middle then halve fromEnd goesFirst (middle + 1) high
    else halve fromEnd goesFirst low middle
termination_by high - low
decreasing_by all_goals omega

/-- The interval in which a stretch ends: steps are doubled from an item that goes first to
    one that does not. -/
def stride (goesFirst : Nat → Bool) (size last step : Nat) : Nat × Nat :=
  if size ≤ step then (last + 1, size)
  else if goesFirst step then stride goesFirst size step (2 * step + 1)
  else (last + 1, step)
termination_by size - step
decreasing_by omega

/-- The length of the stretch of items at the start of a list that go first. -/
def stretch (fromEnd : Bool) (goesFirst : α → Bool) (items : List α) : Nat :=
  let goesFirstAt (index : Nat) : Bool := items[index]?.any goesFirst
  if goesFirstAt 0 then
    let interval := stride goesFirstAt items.length 0 1
    halve fromEnd goesFirstAt interval.1 interval.2
  else 0

/-! ## Merging -/

/-- The number of wins in a row, or the length of a stretch, that pays. -/
def payingStretch : Nat := 7

inductive Pace where
  /-- Compare two items, after so many wins in a row of the left run and of the right one. -/
  | single (leftWins rightWins : Nat)
  | leftStretch
  /-- Move an item of the right run, after a left stretch of some length. -/
  | rightItem (left : Nat)
  /-- Move a stretch of the right run, after a left stretch of some length. -/
  | rightStretch (left : Nat)
  /-- Move an item of the left run, after stretches of some lengths. -/
  | leftItem (left right : Nat)
  /-- Go on with stretches if one of the last lengths paid. -/
  | review (left right : Nat)

/-- Bounds the steps that a merge takes before it moves an item. -/
def Pace.rank : Pace → Nat
  | review _ _ => 3
  | leftStretch => 2
  | rightStretch _ => 2
  | _ => 1

/-- Merge what is left of two runs, and tell how many wins have to come before the next
    stretches. From the end, both runs are turned round, the left items are the greater
    ones, and the right run is the one whose last item closes the merge. -/
def mergeFrom (less : α → α → Bool) (fromEnd : Bool) (patience : Nat) (pace : Pace)
    (left right : List α) : List α × Nat :=
  let leftFirst (a b : α) : Bool := less b a == fromEnd
  let moved (items : List α) (found : List α × Nat) : List α × Nat := (items ++ found.1, found.2)
  match left, right with
  | left, [] => (left, patience)
  | [], right => (right, patience)
  | a :: left, b :: right =>
      if !fromEnd && left.isEmpty then (b :: right ++ [a], patience)
      else if fromEnd && right.isEmpty then (a :: left ++ [b], patience)
      else
        match pace with
        | .single leftWins rightWins =>
            if leftFirst a b then
              let next := if patience ≤ leftWins + 1 then .leftStretch else .single (leftWins + 1) 0
              moved [a] (mergeFrom less fromEnd patience next left (b :: right))
            else
              let next :=
                if patience ≤ rightWins + 1 then .leftStretch else .single 0 (rightWins + 1)
              moved [b] (mergeFrom less fromEnd patience next (a :: left) right)
        | .leftStretch =>
            let count := stretch fromEnd (leftFirst · b) (a :: left)
            moved ((a :: left).take count)
              (mergeFrom less fromEnd patience (.rightItem count) ((a :: left).drop count)
                (b :: right))
        | .rightItem count =>
            moved [b] (mergeFrom less fromEnd patience (.rightStretch count) (a :: left) right)
        | .rightStretch leftCount =>
            let count := stretch fromEnd (fun item => !leftFirst a item) (b :: right)
            moved ((b :: right).take count)
              (mergeFrom less fromEnd patience (.leftItem leftCount count) (a :: left)
                ((b :: right).drop count))
        | .leftItem leftCount rightCount =>
            moved [a] (mergeFrom less fromEnd patience (.review leftCount rightCount) left
              (b :: right))
        | .review leftCount rightCount =>
            if payingStretch ≤ leftCount ∨ payingStretch ≤ rightCount then
              mergeFrom less fromEnd (max 1 (patience - 1)) .leftStretch (a :: left) (b :: right)
            else mergeFrom less fromEnd (patience + 1) (.single 0 0) (a :: left) (b :: right)
termination_by (left.length + right.length, pace.rank)
decreasing_by
  all_goals
    simp only [List.length_cons, List.length_drop, Pace.rank, Prod.lex_def, true_and]
    omega

/-- Merge two neighbouring runs, and tell how many wins have to come before the next
    stretches. Items of the left run that stay in front, and items of the right run that
    stay behind, are set aside. The shorter rest decides from which end. -/
def mergeRuns (less : α → α → Bool) (patience : Nat) (left right : List α) : List α × Nat :=
  match right.head? with
  | none => (left, patience)
  | some first =>
      let front := stretch false (fun item => !less first item) left
      let before := left.take front
      let left := left.drop front
      match left.getLast? with
      | none => (before ++ right, patience)
      | some last =>
          let back := stretch true (fun item => !less item last) right.reverse
          let behind := right.drop (right.length - back)
          let right := right.take (right.length - back)
          if right.isEmpty then (before ++ left ++ behind, patience)
          else if left.length ≤ right.length then
            let found := mergeFrom less false patience (.single 0 0) left right.tail
            (before ++ right.take 1 ++ found.1 ++ behind, found.2)
          else
            let found :=
              mergeFrom less true patience (.single 0 0) left.reverse.tail right.reverse
            (before ++ found.1.reverse ++ last :: behind, found.2)

end NextOffer.Sorting
