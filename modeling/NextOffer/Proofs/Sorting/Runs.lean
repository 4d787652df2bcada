import NextOffer.Proofs.Sorting.Merge
import NextOffer.Sorting.Basic

/-! # Sorting by runs is sorting

For a comparison that respects an order of classes, a sort by runs gives the same items with
their classes in order. Nothing else is asked of the comparison, so this holds of scores
with a NaN among them too: where the comparison decides, the sort does not go wrong.
-/

namespace NextOffer.Sorting

variable {α : Type u} {before : α → α → Prop}

/-! ## Runs -/

theorem chain_append (follows : α → α → Bool) (previous : α) (items : List α) :
    (chain follows previous items).1 ++ (chain follows previous items).2 = items := by
  fun_induction chain follows previous items with
  | case1 => rfl
  | case2 previous item rest follow found ih => rw [List.cons_append, ih]
  | case3 previous item rest stop => rfl

theorem pairwise_chain {follows : α → α → Bool} {r : α → α → Prop} {previous : α}
    {items : List α} (sound : ∀ {a b}, follows a b = true → r a b)
    (trans : ∀ {a b c}, r a b → r b c → r a c) :
    (previous :: (chain follows previous items).1).Pairwise r := by
  fun_induction chain follows previous items with
  | case1 => exact List.pairwise_singleton _ _
  | case2 previous item rest follow found ih =>
      exact List.pairwise_cons.mpr ⟨before_of_head ih (sound follow) trans, ih⟩
  | case3 => exact List.pairwise_singleton _ _

variable {less : α → α → Bool} (respects : Respects less before)

include respects

theorem firstRun_spec (items : List α) :
    (firstRun less items).1.Pairwise before ∧
      ((firstRun less items).1 ++ (firstRun less items).2).Perm items ∧
      (items ≠ [] → (firstRun less items).1 ≠ []) := by
  fun_cases firstRun less items with
  | case1 => exact ⟨.nil, .refl _, fun some => absurd rfl some⟩
  | case2 item => exact ⟨List.pairwise_singleton _ _, .refl _, fun _ => List.cons_ne_nil _ _⟩
  | case3 first second rest falling found =>
      have turned : (first :: second :: found.1).Pairwise fun a b => before b a := by
        have tail : (second :: found.1).Pairwise fun a b => before b a :=
          pairwise_chain (fun follows => respects.of_less follows)
            fun lower upper => respects.trans upper lower
        have head : before second first := respects.of_less falling
        exact List.pairwise_cons.mpr
          ⟨before_of_head tail head fun lower upper => respects.trans upper lower, tail⟩
      have whole : found.1 ++ found.2 = rest := chain_append _ _ _
      refine ⟨List.pairwise_reverse.mpr turned, ?_, fun _ => by simp⟩
      have turnedBack := (first :: second :: found.1).reverse_perm.append_right found.2
      rwa [List.cons_append, List.cons_append, whole] at turnedBack
  | case4 first second rest rising found =>
      have tail : (second :: found.1).Pairwise before :=
        pairwise_chain (fun follows => respects.of_not_less (by simpa using follows)) respects.trans
      have head : before first second := respects.of_not_less (Bool.eq_false_iff.mpr rising)
      have whole : found.1 ++ found.2 = rest := chain_append _ _ _
      refine ⟨List.pairwise_cons.mpr ⟨before_of_head tail head respects.trans, tail⟩, ?_,
        fun _ => List.cons_ne_nil _ _⟩
      rw [List.cons_append, List.cons_append, whole]

/-! ## Insertion -/

theorem arranged_insert (item : α) {sorted : List α} (ordered : sorted.Pairwise before) :
    Arranged before (item :: sorted) (insert less item sorted) := by
  fun_induction insert less item sorted with
  | case1 sorted empty =>
      have none : sorted = [] := by
        rw [List.drop_eq_nil_iff] at empty
        exact List.length_eq_zero_iff.mp (by omega)
      rw [none]
      exact ⟨.refl _, List.pairwise_singleton _ _⟩
  | case2 sorted middle above halved below first ih =>
      have whole : below ++ middle :: above = sorted := by
        rw [← halved, List.take_append_drop]
      rw [← whole] at ordered ⊢
      obtain ⟨below_ordered, above_ordered, apart⟩ := List.pairwise_append.mp ordered
      have inserted : Merged before [item] below (insert less item below) := ih below_ordered
      refine inserted.back_right above_ordered fun x side => ?_
      rcases side with only | inBelow
      · rw [List.mem_singleton.mp only]
        exact before_of_head above_ordered (respects.of_less first) respects.trans
      · exact apart x inBelow
  | case3 sorted middle above halved below later ih =>
      have whole : below ++ [middle] ++ above = sorted := by
        rw [List.append_assoc, List.singleton_append, ← halved, List.take_append_drop]
      rw [← whole] at ordered ⊢
      obtain ⟨front_ordered, above_ordered, apart⟩ := List.pairwise_append.mp ordered
      have inserted : Merged before [item] above (insert less item above) := ih above_ordered
      have head : before middle item := respects.of_not_less (Bool.eq_false_iff.mpr later)
      have ahead : ∀ x ∈ below ++ [middle], before x item := fun x member => by
        rcases List.mem_append.mp member with inBelow | only
        · exact respects.trans
            ((List.pairwise_append.mp front_ordered).2.2 x inBelow middle (by simp)) head
        · rwa [List.mem_singleton.mp only]
      have found := inserted.front_right front_ordered fun x member y side => by
        rcases side with only | inAbove
        · rw [List.mem_singleton.mp only]
          exact ahead x member
        · exact apart x member y inAbove
      simpa only [Merged, List.append_assoc, List.singleton_append] using found

theorem arranged_insertAll {sorted : List α} (ordered : sorted.Pairwise before)
    (items : List α) : Arranged before (sorted ++ items) (insertAll less sorted items) := by
  induction items generalizing sorted with
  | nil => exact ⟨by simp [insertAll], ordered⟩
  | cons item rest ih =>
      have inserted := arranged_insert respects item ordered
      have found := ih inserted.ordered
      exact ⟨found.same.trans ((inserted.same.append_right rest).trans List.perm_middle.symm),
        found.ordered⟩

omit respects

/-! ## Waiting runs -/

/-- Runs that hold the given items, each of them in order. -/
structure Hold (before : α → α → Prop) (items : List α) (runs : List (Run α)) : Prop where
  same : (runs.flatMap Run.items).Perm items
  ordered : ∀ run ∈ runs, run.items.Pairwise before

theorem Hold.push {items : List α} {runs : List (Run α)} (hold : Hold before items runs)
    {run : List α} (ordered : run.Pairwise before) (power : Nat) :
    Hold before (items ++ run) (⟨run, power⟩ :: runs) where
  same := (hold.same.append_left run).trans List.perm_append_comm
  ordered := List.forall_mem_cons.mpr ⟨ordered, hold.ordered⟩

theorem Hold.perm {items others : List α} {runs : List (Run α)} (hold : Hold before items runs)
    (same : items.Perm others) : Hold before others runs :=
  ⟨hold.same.trans same, hold.ordered⟩

/-- The runs behind the last one may change as long as they hold the same items. -/
theorem Hold.under {items : List α} {top : Run α} {runs others : List (Run α)}
    (hold : Hold before items (top :: runs))
    (change : Hold before (runs.flatMap Run.items) runs →
      Hold before (runs.flatMap Run.items) others) :
    Hold before items (top :: others) := by
  obtain ⟨top_ordered, ordered⟩ := List.forall_mem_cons.mp hold.ordered
  have changed := change ⟨.refl _, ordered⟩
  exact ⟨(changed.same.append_left top.items).trans hold.same,
    List.forall_mem_cons.mpr ⟨top_ordered, changed.ordered⟩⟩

include respects

theorem Hold.merge {items : List α} {top below : Run α} {rest : List (Run α)}
    (hold : Hold before items (top :: below :: rest)) (patience power : Nat) :
    Hold before items (⟨(mergeRuns less patience below.items top.items).1, power⟩ :: rest) := by
  obtain ⟨top_ordered, below_ordered, rest_ordered⟩ :=
    List.forall_mem_cons.mp hold.ordered |>.imp_right List.forall_mem_cons.mp
  have merged := merged_mergeRuns respects patience below_ordered top_ordered
  have both := merged.same.trans List.perm_append_comm
  refine ⟨?_, List.forall_mem_cons.mpr ⟨merged.ordered, rest_ordered⟩⟩
  refine .trans ?_ hold.same
  simpa only [List.flatMap_cons, List.append_assoc] using both.append_right (rest.flatMap Run.items)

theorem Hold.settle {items : List α} {runs : List (Run α)} (hold : Hold before items runs)
    (power patience : Nat) : Hold before items (settle less power patience runs).runs := by
  fun_induction Sorting.settle less power patience runs with
  | case1 patience top below rest deeper found ih => exact ih (hold.merge respects _ _)
  | case2 => exact hold
  | case3 => exact hold

theorem Hold.add {items : List α} {pending : Pending α} (hold : Hold before items pending.runs)
    {run : List α} (ordered : run.Pairwise before) (size start : Nat) :
    Hold before (items ++ run) (pending.add less size start run).runs := by
  fun_cases Pending.add less size start pending run with
  | case1 empty =>
      rw [empty] at hold
      exact hold.push ordered 0
  | case2 top rest held middle next power settled =>
      rw [held] at hold
      exact (hold.settle respects _ _).push ordered _

theorem hold_collect {fuel size : Nat} {pending : Pending α} {done rest : List α}
    (hold : Hold before done pending.runs) (enough : rest.length ≤ fuel) :
    Hold before (done ++ rest) (collect less size fuel pending rest).runs := by
  fun_induction collect less size fuel pending rest generalizing done with
  | case1 pending rest =>
      obtain rfl : rest = [] := List.length_eq_zero_iff.mp (by omega)
      rwa [List.append_nil]
  | case2 pending rest fuel empty =>
      rw [List.isEmpty_iff.mp empty, List.append_nil]
      exact hold
  | case3 fuel pending rest some found missing run =>
      rename_i ih
      obtain ⟨run_ordered, whole, nonempty⟩ := firstRun_spec respects rest
      have extended : Arranged before (found.1 ++ found.2.take missing) run :=
        arranged_insertAll respects run_ordered _
      have shorter : (found.2.drop missing).length ≤ fuel := by
        have size := whole.length_eq
        have first := List.length_pos_iff.mpr (nonempty (by simpa using some))
        rw [List.length_append] at size
        simp only [List.length_drop, found]
        omega
      have parts : (run ++ found.2.drop missing).Perm rest := by
        refine (extended.same.append_right _).trans ?_
        rwa [List.append_assoc, List.take_append_drop]
      refine (ih (hold.add respects extended.ordered _ _) shorter).perm ?_
      rw [List.append_assoc]
      exact parts.append_left done

theorem arranged_mergeAll {items : List α} {patience : Nat} {runs : List (Run α)}
    (hold : Hold before items runs) : Arranged before items (mergeAll less patience runs) := by
  fun_induction mergeAll less patience runs with
  | case1 patience => exact ⟨hold.same, .nil⟩
  | case2 patience run =>
      exact ⟨by simpa using hold.same, hold.ordered run (by simp)⟩
  | case3 patience top below =>
      have merged := hold.merge respects patience 0
      exact ⟨by simpa using merged.same, merged.ordered _ (.head _)⟩
  | case4 patience top middle bottom rest shorter found ih =>
      exact ih (hold.under fun others => others.merge respects _ _)
  | case5 patience top middle bottom rest longer found ih => exact ih (hold.merge respects _ _)

/-- Sorting by runs puts the classes in order. -/
theorem arranged_sort (items : List α) : Arranged before items (sort less items) := by
  have empty : Hold before [] ({} : Pending α).runs := ⟨.refl _, nofun⟩
  exact arranged_mergeAll respects (hold_collect respects empty (Nat.le_refl _))

end NextOffer.Sorting
