import NextOffer.Sorting.Merge

/-! # Where a stretch ends

A search asks only some of the items whether they go first, and an answer may contradict
another. All that it finds for certain is an edge: the item in front of it goes first and
the item behind it does not. In an ordered list this is enough to know on which side of a
pivot everything else belongs.
-/

namespace NextOffer.Sorting

/-- A place in a list: the item in front of it goes first, the one behind it does not. -/
structure Edge (goesFirst : Nat → Bool) (size place : Nat) : Prop where
  inside : place ≤ size
  front : place ≠ 0 → goesFirst (place - 1) = true
  behind : place < size → goesFirst place = false

section Search

variable {goesFirst : Nat → Bool} {size : Nat}

theorem edge_halve (fromEnd : Bool) {low high : Nat} (interval : low ≤ high)
    (inside : high ≤ size) (front : low ≠ 0 → goesFirst (low - 1) = true)
    (behind : high < size → goesFirst high = false) :
    Edge goesFirst size (halve fromEnd goesFirst low high) := by
  fun_induction halve fromEnd goesFirst low high with
  | case1 low high done =>
      obtain rfl : low = high := Nat.le_antisymm interval done
      exact ⟨inside, front, behind⟩
  | case2 low high wide middle first ih =>
      have below : middle < high := by
        simp only [middle]
        omega
      exact ih below inside (fun _ => first) behind
  | case3 low high wide middle first ih =>
      have above : low ≤ middle := Nat.le_add_right _ _
      have below : middle ≤ size := by
        simp only [middle]
        omega
      exact ih above below front fun _ => Bool.eq_false_iff.mpr first

/-- The interval after the strides: the item in front of it goes first, and the item at its
    end does not, unless the list ends there. -/
theorem interval_stride (goesFirst : Nat → Bool) {last step : Nat} (ahead : last < step)
    (inside : last < size) (first : goesFirst last = true) :
    let interval := stride goesFirst size last step
    interval.1 ≤ interval.2 ∧ interval.2 ≤ size ∧ goesFirst (interval.1 - 1) = true ∧
      (interval.2 < size → goesFirst interval.2 = false) := by
  fun_induction stride goesFirst size last step with
  | case1 last step far => exact ⟨inside, Nat.le_refl _, first, fun short => absurd short (by simp)⟩
  | case2 last step near further ih => exact ih (by omega) (by omega) further
  | case3 last step near stopped =>
      exact ⟨ahead, by omega, first, fun _ => Bool.eq_false_iff.mpr stopped⟩

end Search

variable {α : Type u}

theorem edge_stretch (fromEnd : Bool) (goesFirst : α → Bool) (items : List α) :
    Edge (fun index => items[index]?.any goesFirst) items.length
      (stretch fromEnd goesFirst items) := by
  simp only [stretch]
  split
  case isTrue first =>
    have nonempty : 0 < items.length := by
      cases items with
      | nil => simp at first
      | cons item rest => simp
    obtain ⟨interval, inside, front, behind⟩ :=
      interval_stride (fun index => items[index]?.any goesFirst) Nat.zero_lt_one nonempty
        first
    exact edge_halve fromEnd interval inside (fun _ => front) behind
  case isFalse stopped =>
    exact ⟨Nat.zero_le _, fun none => absurd rfl none, fun _ => Bool.eq_false_iff.mpr stopped⟩

/-- In an ordered list a stretch splits at the pivot, whatever the answers within its class. -/
theorem stretch_splits {before : α → α → Prop} (fromEnd : Bool) {goesFirst : α → Bool}
    {pivot : α} {items : List α} (ordered : items.Pairwise before)
    (first : ∀ item, goesFirst item = true → before item pivot)
    (later : ∀ item, goesFirst item = false → before pivot item)
    (trans : ∀ {a b c}, before a b → before b c → before a c) :
    (∀ item ∈ items.take (stretch fromEnd goesFirst items), before item pivot) ∧
      ∀ item ∈ items.drop (stretch fromEnd goesFirst items), before pivot item := by
  have edge := edge_stretch fromEnd goesFirst items
  generalize stretch fromEnd goesFirst items = place at edge
  have sorted := List.pairwise_iff_getElem.mp ordered
  constructor
  · intro item member
    obtain ⟨i, below, rfl⟩ := List.mem_take_iff_getElem.mp member
    have inside := edge.inside
    have top : place - 1 < items.length := by omega
    have front : items[place - 1]?.any goesFirst = true := edge.front (by omega)
    rw [List.getElem?_eq_getElem top] at front
    have last : before items[place - 1] pivot := first _ front
    rcases Nat.eq_or_lt_of_le (show i ≤ place - 1 by omega) with rfl | lower
    · exact last
    · exact trans (sorted i (place - 1) (by omega) top lower) last
  · intro item member
    obtain ⟨i, above, rfl⟩ := List.mem_drop_iff_getElem.mp member
    have bottom : place < items.length := by omega
    have behind : items[place]?.any goesFirst = false := edge.behind bottom
    rw [List.getElem?_eq_getElem bottom] at behind
    have next : before pivot items[place] := later _ behind
    rcases Nat.eq_zero_or_pos i with rfl | higher
    · exact next
    · exact trans next (sorted place (place + i) bottom (by omega) (by omega))

theorem stretch_splits_back {before : α → α → Prop} (fromEnd : Bool) {goesFirst : α → Bool}
    {pivot : α} {items : List α} (ordered : items.Pairwise before)
    (first : ∀ item, goesFirst item = true → before pivot item)
    (later : ∀ item, goesFirst item = false → before item pivot)
    (trans : ∀ {a b c}, before a b → before b c → before a c) :
    let back := stretch fromEnd goesFirst items.reverse
    (∀ item ∈ items.take (items.length - back), before item pivot) ∧
      ∀ item ∈ items.drop (items.length - back), before pivot item := by
  intro back
  have turned : items.reverse.Pairwise fun a b => before b a := List.pairwise_reverse.mpr ordered
  obtain ⟨near, far⟩ := stretch_splits fromEnd turned first later fun lower upper =>
    trans upper lower
  constructor
  · intro item member
    refine far item ?_
    rw [List.drop_reverse, List.mem_reverse]
    exact member
  · intro item member
    refine near item ?_
    rw [List.take_reverse, List.mem_reverse]
    exact member

end NextOffer.Sorting
