import NextOffer.Proofs.Sorting.Stretch

/-! # Merging ordered runs

A comparison respects an order of classes when it never says anything against it. Within a
class it may answer as it likes, so it need not be an order itself. Merging two runs whose
classes are in order still gives one list whose classes are in order.
-/

namespace NextOffer.Sorting

variable {α : Type u} {before : α → α → Prop} {left right found : List α}

/-- The comparison and the order of classes agree wherever the order decides. -/
structure Respects (less : α → α → Bool) (before : α → α → Prop) : Prop where
  trans : ∀ {a b c}, before a b → before b c → before a c
  of_less : ∀ {a b}, less a b = true → before a b
  of_not_less : ∀ {a b}, less a b = false → before b a

theorem Respects.refl {less : α → α → Bool} (respects : Respects less before) (a : α) :
    before a a := by
  cases answer : less a a with
  | true => exact respects.of_less answer
  | false => exact respects.of_not_less answer

/-- The same items, in order. -/
structure Arranged (before : α → α → Prop) (items found : List α) : Prop where
  same : found.Perm items
  ordered : found.Pairwise before

theorem Respects.stretch_front {less : α → α → Bool} (respects : Respects less before)
    {items : List α} (ordered : items.Pairwise before) (pivot : α) :
    let count := stretch false (fun item => !less pivot item) items
    (∀ item ∈ items.take count, before item pivot) ∧
      ∀ item ∈ items.drop count, before pivot item :=
  stretch_splits false ordered (fun _ first => respects.of_not_less (by simpa using first))
    (fun _ later => respects.of_less (by simpa using later)) respects.trans

theorem Respects.stretch_back {less : α → α → Bool} (respects : Respects less before)
    {items : List α} (ordered : items.Pairwise before) (pivot : α) :
    let count := stretch true (fun item => !less item pivot) items.reverse
    (∀ item ∈ items.take (items.length - count), before item pivot) ∧
      ∀ item ∈ items.drop (items.length - count), before pivot item :=
  stretch_splits_back true ordered (fun _ first => respects.of_not_less (by simpa using first))
    (fun _ later => respects.of_less (by simpa using later)) respects.trans

/-! ## Merged lists -/

/-- A list that holds the items of two others, in order. -/
abbrev Merged (before : α → α → Prop) (left right found : List α) : Prop :=
  Arranged before (left ++ right) found

namespace Merged

theorem left_only (ordered : left.Pairwise before) : Merged before left [] left :=
  ⟨by rw [List.append_nil], ordered⟩

theorem right_only (ordered : right.Pairwise before) : Merged before [] right right :=
  ⟨.refl _, ordered⟩

theorem mem_iff (merged : Merged before left right found) {item : α} :
    item ∈ found ↔ item ∈ left ∨ item ∈ right := by
  rw [merged.same.mem_iff, List.mem_append]

theorem front_left {front : List α} (ordered : front.Pairwise before)
    (ahead : ∀ x ∈ front, ∀ y, y ∈ left ∨ y ∈ right → before x y)
    (merged : Merged before left right found) :
    Merged before (front ++ left) right (front ++ found) where
  same := by
    rw [List.append_assoc]
    exact merged.same.append_left front
  ordered := List.pairwise_append.mpr
    ⟨ordered, merged.ordered, fun x inFront y inFound =>
      ahead x inFront y (merged.mem_iff.mp inFound)⟩

theorem swap (merged : Merged before left right found) : Merged before right left found :=
  ⟨merged.same.trans List.perm_append_comm, merged.ordered⟩

theorem front_right {front : List α} (ordered : front.Pairwise before)
    (ahead : ∀ x ∈ front, ∀ y, y ∈ left ∨ y ∈ right → before x y)
    (merged : Merged before left right found) :
    Merged before left (front ++ right) (front ++ found) :=
  (front_left ordered (fun x inFront y side => ahead x inFront y side.symm) merged.swap).swap

theorem back_left {back : List α} (ordered : back.Pairwise before)
    (behind : ∀ x, x ∈ left ∨ x ∈ right → ∀ y ∈ back, before x y)
    (merged : Merged before left right found) :
    Merged before (left ++ back) right (found ++ back) where
  same := by
    have moved : (left ++ right ++ back).Perm (left ++ back ++ right) := by
      rw [List.append_assoc, List.append_assoc]
      exact List.perm_append_comm.append_left left
    exact (merged.same.append_right back).trans moved
  ordered := List.pairwise_append.mpr
    ⟨merged.ordered, ordered, fun x inFound => behind x (merged.mem_iff.mp inFound)⟩

theorem back_right {back : List α} (ordered : back.Pairwise before)
    (behind : ∀ x, x ∈ left ∨ x ∈ right → ∀ y ∈ back, before x y)
    (merged : Merged before left right found) :
    Merged before left (right ++ back) (found ++ back) :=
  (back_left ordered (fun x side => behind x side.symm) merged.swap).swap

theorem reverse (merged : Merged (fun a b => before b a) left.reverse right.reverse found) :
    Merged before left right found.reverse where
  same := by
    have same := merged.same.trans (left.reverse_perm.append right.reverse_perm)
    exact found.reverse_perm.trans same
  ordered := List.pairwise_reverse.mpr merged.ordered

end Merged

/-! ## One merge -/

/-- The comparison of a merge picks its next item in agreement with the order. From the end,
    both are turned round. -/
structure Picks (less : α → α → Bool) (fromEnd : Bool) (before : α → α → Prop) : Prop where
  trans : ∀ {a b c}, before a b → before b c → before a c
  left_first : ∀ {a b}, (less b a == fromEnd) = true → before a b
  right_first : ∀ {a b}, (less b a == fromEnd) = false → before b a

theorem Respects.picks {less : α → α → Bool} (respects : Respects less before) :
    Picks less false before where
  trans := respects.trans
  left_first first := respects.of_not_less (by simpa using first)
  right_first first := respects.of_less (by simpa using first)

theorem Respects.picks_fromEnd {less : α → α → Bool} (respects : Respects less before) :
    Picks less true fun a b => before b a where
  trans first second := respects.trans second first
  left_first first := respects.of_less (by simpa using first)
  right_first first := respects.of_not_less (by simpa using first)

/-- The item that is moved next without a comparison belongs in front. -/
def Pace.Justified (before : α → α → Prop) : Pace → List α → List α → Prop
  | .rightItem _, left, b :: _ => ∀ x ∈ left, before b x
  | .leftItem _ _, a :: _, right => ∀ y ∈ right, before a y
  | _, _, _ => True

/-- What a merge finds at each of its steps: two ordered runs of which the one that lasts
    longer is known, since its last item closes the merge. -/
structure Ready (before : α → α → Prop) (fromEnd : Bool) (pace : Pace) (left right : List α) :
    Prop where
  left_ordered : left.Pairwise before
  right_ordered : right.Pairwise before
  left_closes : fromEnd = false → ∀ last, left.getLast? = some last → ∀ y ∈ right, before y last
  right_closes : fromEnd = true → ∀ last, right.getLast? = some last → ∀ x ∈ left, before x last
  justified : pace.Justified before left right

theorem getLast?_of_suffix {rest : List α} (suffix : rest <:+ left) {last : α}
    (found : rest.getLast? = some last) : left.getLast? = some last := by
  obtain ⟨front, rfl⟩ := suffix
  rw [List.getLast?_append, found, Option.some_or]

theorem Ready.advance {fromEnd : Bool} {pace next : Pace} {left' right' : List α}
    (ready : Ready before fromEnd pace left right) (inLeft : left' <:+ left)
    (inRight : right' <:+ right) (justified : next.Justified before left' right') :
    Ready before fromEnd next left' right' where
  left_ordered := ready.left_ordered.sublist inLeft.sublist
  right_ordered := ready.right_ordered.sublist inRight.sublist
  left_closes forward last found y member :=
    ready.left_closes forward last (getLast?_of_suffix inLeft found) y (inRight.subset member)
  right_closes backward last found x member :=
    ready.right_closes backward last (getLast?_of_suffix inRight found) x (inLeft.subset member)
  justified

theorem before_of_head {x b : α} {rest : List α} (ordered : (b :: rest).Pairwise before)
    (head : before x b) (trans : ∀ {a b c}, before a b → before b c → before a c) :
    ∀ y ∈ b :: rest, before x y := by
  intro y member
  rcases List.mem_cons.mp member with rfl | member
  · exact head
  · exact trans head (List.rel_of_pairwise_cons ordered member)

section Step

variable {less : α → α → Bool} {fromEnd : Bool} (picks : Picks less fromEnd before)
  {pace : Pace} {a b : α}

include picks

theorem Ready.pick_left (ready : Ready before fromEnd pace (a :: left) (b :: right))
    (head : before a b) (merged : Merged before left (b :: right) found) :
    Merged before (a :: left) (b :: right) ([a] ++ found) :=
  merged.front_left (List.pairwise_singleton _ _) fun x only y side => by
    rw [List.mem_singleton.mp only]
    rcases side with inLeft | inRight
    · exact List.rel_of_pairwise_cons ready.left_ordered inLeft
    · exact before_of_head ready.right_ordered head picks.trans y inRight

theorem Ready.pick_right (ready : Ready before fromEnd pace (a :: left) (b :: right))
    (head : before b a) (merged : Merged before (a :: left) right found) :
    Merged before (a :: left) (b :: right) ([b] ++ found) :=
  merged.front_right (List.pairwise_singleton _ _) fun x only y side => by
    rw [List.mem_singleton.mp only]
    rcases side with inLeft | inRight
    · exact before_of_head ready.left_ordered head picks.trans y inLeft
    · exact List.rel_of_pairwise_cons ready.right_ordered inRight

theorem Ready.move_left (ready : Ready before fromEnd pace left (b :: right)) {count : Nat}
    (ahead : ∀ x ∈ left.take count, before x b)
    (merged : Merged before (left.drop count) (b :: right) found) :
    Merged before left (b :: right) (left.take count ++ found) := by
  have split : (left.take count ++ left.drop count).Pairwise before := by
    rw [List.take_append_drop]
    exact ready.left_ordered
  have moved := merged.front_left (ready.left_ordered.sublist (List.take_sublist _ _))
    fun x inFront y side => by
      rcases side with inLeft | inRight
      · exact (List.pairwise_append.mp split).2.2 x inFront y inLeft
      · exact before_of_head ready.right_ordered (ahead x inFront) picks.trans y inRight
  rwa [List.take_append_drop] at moved

theorem Ready.move_right (ready : Ready before fromEnd pace (a :: left) right) {count : Nat}
    (ahead : ∀ y ∈ right.take count, before y a)
    (merged : Merged before (a :: left) (right.drop count) found) :
    Merged before (a :: left) right (right.take count ++ found) := by
  have split : (right.take count ++ right.drop count).Pairwise before := by
    rw [List.take_append_drop]
    exact ready.right_ordered
  have moved := merged.front_right (ready.right_ordered.sublist (List.take_sublist _ _))
    fun x inFront y side => by
      rcases side with inLeft | inRight
      · exact before_of_head ready.left_ordered (ahead x inFront) picks.trans y inLeft
      · exact (List.pairwise_append.mp split).2.2 x inFront y inRight
  rwa [List.take_append_drop] at moved

end Step

theorem merged_mergeFrom {less : α → α → Bool} {fromEnd : Bool}
    (picks : Picks less fromEnd before) {patience : Nat} {pace : Pace}
    (ready : Ready before fromEnd pace left right) :
    Merged before left right (mergeFrom less fromEnd patience pace left right).1 := by
  fun_induction mergeFrom less fromEnd patience pace left right with
  | case1 patience pace left => exact .left_only ready.left_ordered
  | case2 patience pace right _ => exact .right_only ready.right_ordered
  | case3 patience pace a left b right single =>
      obtain ⟨forward, alone⟩ : fromEnd = false ∧ left = [] := by simpa using single
      subst alone
      exact (Merged.right_only ready.right_ordered).back_left (by simp) fun x side y member => by
        rw [List.mem_singleton.mp member]
        exact ready.left_closes forward a rfl x (by simpa using side)
  | case4 patience pace a left b right _ single =>
      obtain ⟨backward, alone⟩ : fromEnd = true ∧ right = [] := by simpa using single
      subst alone
      exact (Merged.left_only ready.left_ordered).back_right (by simp) fun x side y member => by
        rw [List.mem_singleton.mp member]
        exact ready.right_closes backward b rfl x (by simpa using side)
  | case5 patience leftFirst moved a left b right _ _ leftWins rightWins first next ih =>
      have justified : next.Justified before left (b :: right) := by
        simp only [next]
        split <;> trivial
      exact ready.pick_left picks (picks.left_first first)
        (ih (ready.advance (List.suffix_cons a left) List.suffix_rfl justified))
  | case6 patience leftFirst moved a left b right _ _ leftWins rightWins second next ih =>
      have justified : next.Justified before (a :: left) right := by
        simp only [next]
        split <;> trivial
      exact ready.pick_right picks (picks.right_first (Bool.eq_false_iff.mpr second))
        (ih (ready.advance List.suffix_rfl (List.suffix_cons b right) justified))
  | case7 patience leftFirst moved a left b right _ _ count ih =>
      obtain ⟨ahead, rest⟩ := stretch_splits fromEnd ready.left_ordered
        (fun _ => picks.left_first) (fun _ => picks.right_first) picks.trans
      exact ready.move_left picks ahead
        (ih (ready.advance (List.drop_suffix _ _) List.suffix_rfl rest))
  | case8 patience moved a left b right _ _ leftCount ih =>
      exact ready.pick_right picks (ready.justified a (by simp))
        (ih (ready.advance List.suffix_rfl (List.suffix_cons b right) trivial))
  | case9 patience leftFirst moved a left b right _ _ leftCount count ih =>
      have passed : ∀ y, (!leftFirst a y) = true → before y a := fun y passed =>
        picks.right_first (by simpa only [Bool.not_eq_true'] using passed)
      have chosen : ∀ y, (!leftFirst a y) = false → before a y := fun y chosen =>
        picks.left_first (by simpa only [Bool.not_eq_false'] using chosen)
      obtain ⟨ahead, rest⟩ := stretch_splits fromEnd ready.right_ordered passed
        chosen picks.trans
      exact ready.move_right picks ahead
        (ih (ready.advance List.suffix_rfl (List.drop_suffix _ _) rest))
  | case10 patience moved a left b right _ _ leftCount rightCount ih =>
      exact ready.pick_left picks (ready.justified b (by simp))
        (ih (ready.advance (List.suffix_cons a left) List.suffix_rfl trivial))
  | case11 patience a left b right _ _ leftCount rightCount pays ih =>
      exact ih (ready.advance List.suffix_rfl List.suffix_rfl trivial)
  | case12 patience a left b right _ _ leftCount rightCount slow ih =>
      exact ih (ready.advance List.suffix_rfl List.suffix_rfl trivial)

/-! ## Merging neighbours -/

section Neighbours

variable {less : α → α → Bool} (respects : Respects less before) (patience : Nat) {first : α}

include respects

theorem merged_forward (left_ordered : left.Pairwise before)
    (right_ordered : (first :: right).Pairwise before) (opens : ∀ x ∈ left, before first x)
    (closes : ∀ last, left.getLast? = some last → ∀ y ∈ right, before y last) :
    Merged before left (first :: right)
      ([first] ++ (mergeFrom less false patience (.single 0 0) left right).1) := by
  have ready : Ready before false (.single 0 0) left right :=
    ⟨left_ordered, right_ordered.of_cons, fun _ => closes, nofun, trivial⟩
  refine (merged_mergeFrom respects.picks ready).front_right (List.pairwise_singleton _ _) ?_
  intro x only y side
  rw [List.mem_singleton.mp only]
  rcases side with inLeft | inRight
  · exact opens y inLeft
  · exact List.rel_of_pairwise_cons right_ordered inRight

theorem merged_backward {last : α} (left_ordered : (left ++ [last]).Pairwise before)
    (right_ordered : (first :: right).Pairwise before) (opens : ∀ x ∈ left, before first x)
    (closes : ∀ y ∈ first :: right, before y last) :
    Merged before (left ++ [last]) (first :: right)
      ((mergeFrom less true patience (.single 0 0) left.reverse (first :: right).reverse).1.reverse
        ++ [last]) := by
  obtain ⟨left_ordered, -, below⟩ := List.pairwise_append.mp left_ordered
  have ready : Ready (fun a b => before b a) true (.single 0 0) left.reverse
      (first :: right).reverse := by
    refine ⟨List.pairwise_reverse.mpr left_ordered, List.pairwise_reverse.mpr right_ordered, nofun,
      ?_, trivial⟩
    intro _ last found x member
    rw [List.getLast?_reverse, List.head?_cons] at found
    cases found
    exact opens x (List.mem_reverse.mp member)
  refine (merged_mergeFrom respects.picks_fromEnd ready).reverse.back_left
    (List.pairwise_singleton _ _) ?_
  intro x side y only
  rw [List.mem_singleton.mp only]
  rcases side with inLeft | inRight
  · exact below x inLeft last (by simp)
  · exact closes x inRight

theorem merged_middle {init middle : List α} {last : α}
    (left_ordered : (init ++ [last]).Pairwise before) (right_ordered : middle.Pairwise before)
    (opens : ∀ head, middle.head? = some head → ∀ x ∈ init ++ [last], before head x)
    (closes : ∀ y ∈ middle, before y last) :
    Merged before (init ++ [last]) middle
      (if middle.isEmpty then init ++ [last]
      else if (init ++ [last]).length ≤ middle.length then
        middle.take 1 ++
          (mergeFrom less false patience (.single 0 0) (init ++ [last]) middle.tail).1
      else
        (mergeFrom less true patience (.single 0 0) (init ++ [last]).reverse.tail
          middle.reverse).1.reverse ++ [last]) := by
  cases middle with
  | nil => exact .left_only left_ordered
  | cons first tail =>
      simp only [List.isEmpty_cons, Bool.false_eq_true, if_false]
      split
      case isTrue =>
          refine merged_forward respects patience left_ordered right_ordered (opens first rfl) ?_
          intro final found y member
          rw [List.getLast?_concat] at found
          cases found
          exact closes y (.tail _ member)
      case isFalse =>
          simpa only [List.reverse_concat, List.tail_cons] using
            merged_backward respects patience left_ordered right_ordered
              (fun x member => opens first rfl x (List.mem_append_left _ member)) closes

/-- Items in front of a merge and behind it, set aside beforehand, stay where they are. -/
theorem Merged.set_aside {front back : List α} {last : α}
    (merged : Merged before left right found) (front_ordered : front.Pairwise before)
    (back_ordered : back.Pairwise before) (inFront : ∀ x ∈ front, before x first)
    (opens : ∀ y, y ∈ left ∨ y ∈ right → before first y) (spans : before first last)
    (closes : ∀ x, x ∈ left ∨ x ∈ right → before x last) (behind : ∀ y ∈ back, before last y) :
    Merged before (front ++ left) (right ++ back) (front ++ found ++ back) := by
  have whole := merged.front_left front_ordered fun x member y side =>
    respects.trans (inFront x member) (opens y side)
  refine whole.back_right back_ordered fun x side y member => ?_
  have upToLast : before x last := by
    rcases side with inLeft | inRight
    · rcases List.mem_append.mp inLeft with inFirst | inLeft
      · exact respects.trans (inFront x inFirst) spans
      · exact closes x (.inl inLeft)
    · exact closes x (.inr inRight)
  exact respects.trans upToLast (behind y member)

end Neighbours

/-- Neighbouring runs that are ordered have an ordered merge. -/
theorem merged_mergeRuns {less : α → α → Bool} (respects : Respects less before)
    (patience : Nat) (left_ordered : left.Pairwise before) (right_ordered : right.Pairwise before) :
    Merged before left right (mergeRuns less patience left right).1 := by
  unfold mergeRuns
  split
  case h_1 empty =>
      obtain rfl := List.head?_eq_none_iff.mp empty
      exact .left_only left_ordered
  case h_2 first headed =>
      obtain ⟨rest, rfl⟩ := List.head?_eq_some_iff.mp headed
      obtain ⟨inFront, opens⟩ := respects.stretch_front left_ordered first
      have whole := List.take_append_drop (stretch false (fun x => !less first x) left) left
      dsimp only
      generalize left.take (stretch false (fun x => !less first x) left) = front at *
      generalize left.drop (stretch false (fun x => !less first x) left) = others at *
      subst whole
      obtain ⟨front_ordered, others_ordered, -⟩ := List.pairwise_append.mp left_ordered
      have opened := before_of_head right_ordered (respects.refl first) respects.trans
      split
      case h_1 empty =>
          obtain rfl := List.getLast?_eq_none_iff.mp empty
          exact (Merged.right_only right_ordered).front_left front_ordered fun x member y side =>
            respects.trans (inFront x member) (opened y (by simpa using side))
      case h_2 last ended =>
          obtain ⟨init, rfl⟩ := List.getLast?_eq_some_iff.mp ended
          obtain ⟨closes, behind⟩ := respects.stretch_back right_ordered last
          have whole := List.take_append_drop ((first :: rest).length -
            stretch true (fun x => !less x last) (first :: rest).reverse) (first :: rest)
          generalize (first :: rest).take ((first :: rest).length -
            stretch true (fun x => !less x last) (first :: rest).reverse) = middle at *
          generalize (first :: rest).drop ((first :: rest).length -
            stretch true (fun x => !less x last) (first :: rest).reverse) = back at *
          rw [← whole] at right_ordered ⊢
          obtain ⟨middle_ordered, back_ordered, -⟩ := List.pairwise_append.mp right_ordered
          have members : ∀ y ∈ middle, before first y := fun y member =>
            opened y (whole ▸ List.mem_append_left back member)
          have upTo : ∀ x ∈ init ++ [last], before x last := fun x member => by
            rcases List.mem_append.mp member with inInit | only
            · exact (List.pairwise_append.mp others_ordered).2.2 x inInit last (by simp)
            · rw [List.mem_singleton.mp only]
              exact respects.refl last
          have headed : ∀ head, middle.head? = some head → head = first := fun head found => by
            obtain ⟨tail, rfl⟩ := List.head?_eq_some_iff.mp found
            exact (List.cons.inj whole).1
          have merged := (merged_middle respects patience others_ordered middle_ordered
            (fun head found x member => headed head found ▸ opens x member) closes).set_aside
              respects front_ordered back_ordered inFront
              (fun y side => side.elim (opens y) (members y)) (opens last (by simp))
              (fun x side => side.elim (upTo x) (closes x)) behind
          by_cases none : middle.isEmpty
          · simpa only [none, if_true] using merged
          · by_cases short : (init ++ [last]).length ≤ middle.length <;>
              simpa only [none, short, Bool.false_eq_true, if_true, if_false, List.append_assoc,
                List.singleton_append] using merged

end NextOffer.Sorting
