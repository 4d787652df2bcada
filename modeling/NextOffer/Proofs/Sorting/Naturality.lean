import NextOffer.Proofs.Sorting.Runs

/-! # Sorting sees only comparisons

A sort looks at its items through the comparison alone. Items that are told by others which
compare alike are therefore sorted in the same way: it makes no difference whether the items
are replaced before the sort or after it, whatever the comparison answers.
-/

namespace NextOffer.Sorting

variable {α : Type u} {β : Type v} (f : β → α) (less : α → α → Bool)

/-! ## Runs -/

theorem chain_map (follows : α → α → Bool) (previous : β) (items : List β) :
    chain follows (f previous) (items.map f) =
      (chain (fun a b => follows (f a) (f b)) previous items).map (List.map f) (List.map f) := by
  induction items generalizing previous with
  | nil => rfl
  | cons item rest ih =>
      simp only [chain, List.map_cons, ih]
      split <;> rfl

theorem firstRun_map (items : List β) :
    firstRun less (items.map f) =
      (firstRun (fun a b => less (f a) (f b)) items).map (List.map f) (List.map f) := by
  fun_cases firstRun (fun a b => less (f a) (f b)) items with
  | case1 => rfl
  | case2 item => rfl
  | case3 first second rest falling found =>
      simp only [List.map_cons, firstRun, falling, if_true, chain_map]
      simp [found]
  | case4 first second rest rising found =>
      simp only [List.map_cons, firstRun, rising, if_false, chain_map, Bool.false_eq_true]
      rfl

theorem insert_eq {less : α → α → Bool} {item middle : α} {sorted above : List α}
    (cut : sorted.drop (sorted.length / 2) = middle :: above) :
    insert less item sorted =
      if less item middle then
        insert less item (sorted.take (sorted.length / 2)) ++ middle :: above
      else sorted.take (sorted.length / 2) ++ middle :: insert less item above := by
  rw [insert]
  split
  case h_1 none => cases cut.symm.trans none
  case h_2 found =>
      cases cut.symm.trans found
      rfl

theorem insert_map (item : β) (sorted : List β) :
    insert less (f item) (sorted.map f) =
      (insert (fun a b => less (f a) (f b)) item sorted).map f := by
  have halved (sorted : List β) : (sorted.map f).drop ((sorted.map f).length / 2) =
      (sorted.drop (sorted.length / 2)).map f := by
    rw [List.length_map, List.map_drop]
  fun_induction insert (fun a b => less (f a) (f b)) item sorted with
  | case1 sorted empty =>
      have none : sorted = [] := by
        rw [List.drop_eq_nil_iff] at empty
        exact List.length_eq_zero_iff.mp (by omega)
      rw [none, insert]
      split
      case h_1 => rfl
      case h_2 found => simp at found
  | case2 sorted middle above cut below first ih =>
      have cut' := (halved sorted).trans (congrArg (List.map f) cut)
      rw [insert_eq cut', if_pos first, List.length_map, ← List.map_take, ih, List.map_append,
        List.map_cons]
  | case3 sorted middle above cut below later ih =>
      have cut' := (halved sorted).trans (congrArg (List.map f) cut)
      rw [insert_eq cut', if_neg later, List.length_map, ← List.map_take, ih, List.map_append,
        List.map_cons]

theorem insertAll_map (sorted items : List β) :
    insertAll less (sorted.map f) (items.map f) =
      (insertAll (fun a b => less (f a) (f b)) sorted items).map f := by
  induction items generalizing sorted with
  | nil => rfl
  | cons item rest ih =>
      rw [List.map_cons, insertAll, List.foldl_cons, insert_map]
      exact ih _

/-! ## Merging -/

theorem stretch_map (fromEnd : Bool) (goesFirst : α → Bool) (items : List β) :
    stretch fromEnd goesFirst (items.map f) =
      stretch fromEnd (fun item => goesFirst (f item)) items := by
  have asked (index : Nat) : (items.map f)[index]?.any goesFirst =
      items[index]?.any fun item => goesFirst (f item) := by
    rw [List.getElem?_map, Option.any_map]
  simp only [stretch, asked, List.length_map]

variable {f} in
private theorem prepend_map (items : List β) {found : List β × Nat} {found' : List α × Nat}
    (same : found' = found.map (List.map f) id) :
    (items.map f ++ found'.1, found'.2) = (items ++ found.1, found.2).map (List.map f) id := by
  rw [same]
  simp

theorem mergeFrom_map (fromEnd : Bool) (patience : Nat) (pace : Pace) (left right : List β) :
    mergeFrom less fromEnd patience pace (left.map f) (right.map f) =
      (mergeFrom (fun a b => less (f a) (f b)) fromEnd patience pace left right).map
        (List.map f) id := by
  -- Both sides take the same branch; the cases only join what is merged next.
  fun_induction mergeFrom (fun a b => less (f a) (f b)) fromEnd patience pace left right with
    (rw [mergeFrom.eq_def]; try simp only [List.map_cons, List.isEmpty_map, *])
  | case1 => simp
  | case2 patience pace right some => cases right <;> simp_all
  | case3 => simp
  | case4 => simp
  | case5 patience leftFirst moved a left b right some some' leftWins rightWins first next ih =>
      rw [if_pos first]
      exact prepend_map [a] ih
  | case6 patience leftFirst moved a left b right some some' leftWins rightWins later next ih =>
      rw [if_neg later]
      exact prepend_map [b] ih
  | case7 patience leftFirst moved a left b right some some' count ih =>
      simp only [← List.map_cons, stretch_map, ← List.map_take, ← List.map_drop]
      exact prepend_map _ ih
  | case8 patience moved a left b right some some' count ih => exact prepend_map [b] ih
  | case9 patience leftFirst moved a left b right some some' leftCount count ih =>
      simp only [← List.map_cons, stretch_map, ← List.map_take, ← List.map_drop]
      exact prepend_map _ ih
  | case10 patience moved a left b right some some' leftCount rightCount ih =>
      exact prepend_map [a] ih
  | case11 patience a left b right some some' leftCount rightCount pays ih => exact ih
  | case12 patience a left b right some some' leftCount rightCount pays ih => exact ih

theorem mergeRuns_map (patience : Nat) (left right : List β) :
    mergeRuns less patience (left.map f) (right.map f) =
      (mergeRuns (fun a b => less (f a) (f b)) patience left right).map (List.map f) id := by
  unfold mergeRuns
  rw [List.head?_map]
  cases right.head? with
  | none => rfl
  | some first =>
      simp only [Option.map_some, stretch_map, ← List.map_drop, ← List.map_take,
        List.getLast?_map]
      cases (left.drop (stretch false (fun item => !less (f first) (f item)) left)).getLast? with
      | none => simp
      | some last =>
          simp only [Option.map_some, ← List.map_reverse, stretch_map, ← List.map_tail,
            List.length_map, List.isEmpty_map, mergeFrom_map]
          split
          case isTrue => simp
          case isFalse => split <;> simp

/-! ## Waiting runs -/

/-- A run of the same items, told by others. -/
def Run.map (run : Run β) : Run α := ⟨run.items.map f, run.power⟩

def Pending.map (pending : Pending β) : Pending α :=
  ⟨pending.runs.map (Run.map f), pending.patience⟩

theorem settle_map (power patience : Nat) (runs : List (Run β)) :
    settle less power patience (runs.map (Run.map f)) =
      (settle (fun a b => less (f a) (f b)) power patience runs).map f := by
  fun_induction settle (fun a b => less (f a) (f b)) power patience runs with
  | case1 patience top below rest deeper found ih =>
      have deeper' : power < (top.map f).power := deeper
      rw [List.map_cons, List.map_cons, settle, if_pos deeper']
      simp only [Run.map, mergeRuns_map] at ih ⊢
      exact ih
  | case2 patience top below rest higher =>
      have higher' : ¬ power < (top.map f).power := higher
      rw [List.map_cons, List.map_cons, settle, if_neg higher']
      rfl
  | case3 patience runs short =>
      cases runs with
      | nil => simp [settle, Pending.map]
      | cons top rest =>
          cases rest with
          | nil => simp [settle, Pending.map]
          | cons below rest => exact (short _ _ _ rfl).elim

theorem Pending.add_map (size start : Nat) (pending : Pending β) (items : List β) :
    (pending.map f).add less size start (items.map f) =
      (pending.add (fun a b => less (f a) (f b)) size start items).map f := by
  fun_cases Pending.add (fun a b => less (f a) (f b)) size start pending items with
  | case1 empty => simp [add, map, Run.map, empty]
  | case2 top rest held middle next power settled =>
      have held' : (pending.map f).runs = top.map f :: rest.map (Run.map f) := by
        simp [map, held]
      have size : (top.map f).items.length = top.items.length := by simp [Run.map]
      have settled' : settle less power pending.patience (top.map f :: rest.map (Run.map f)) =
          settled.map f := settle_map f less power pending.patience (top :: rest)
      simp only [add, held', size, List.length_map]
      exact congrArg (fun settled : Pending α =>
        ({ settled with runs := ⟨items.map f, power⟩ :: settled.runs } : Pending α)) settled'

theorem collect_map (size fuel : Nat) (pending : Pending β) (items : List β) :
    collect less size fuel (pending.map f) (items.map f) =
      (collect (fun a b => less (f a) (f b)) size fuel pending items).map f := by
  fun_induction collect (fun a b => less (f a) (f b)) size fuel pending items with
  | case1 pending items => rfl
  | case2 pending items fuel empty =>
      rw [collect, List.isEmpty_map, if_pos empty]
  | case3 fuel pending items some found missing run ih =>
      rw [collect, List.isEmpty_map, if_neg some]
      simp only [firstRun_map, Prod.map_fst, Prod.map_snd, List.length_map, ← List.map_take,
        ← List.map_drop, insertAll_map, Pending.add_map]
      exact ih

theorem mergeAll_map (patience : Nat) (runs : List (Run β)) :
    mergeAll less patience (runs.map (Run.map f)) =
      (mergeAll (fun a b => less (f a) (f b)) patience runs).map f := by
  fun_induction mergeAll (fun a b => less (f a) (f b)) patience runs with
  | case1 patience => simp [mergeAll]
  | case2 patience run => simp [mergeAll, Run.map]
  | case3 patience top below => simp [mergeAll, Run.map, mergeRuns_map]
  | case4 patience top middle bottom rest shorter found ih =>
      have shorter' : (bottom.map f).items.length < (top.map f).items.length := by
        simpa [Run.map] using shorter
      rw [List.map_cons, List.map_cons, List.map_cons, mergeAll, if_pos shorter']
      simp only [Run.map, mergeRuns_map] at ih ⊢
      exact ih
  | case5 patience top middle bottom rest longer found ih =>
      have longer' : ¬ (bottom.map f).items.length < (top.map f).items.length := by
        simpa [Run.map] using longer
      rw [List.map_cons, List.map_cons, List.map_cons, mergeAll, if_neg longer']
      simp only [Run.map, mergeRuns_map] at ih ⊢
      exact ih

/-- Items that are told by others are sorted like these. -/
theorem sort_map (items : List β) :
    sort less (items.map f) = (sort (fun a b => less (f a) (f b)) items).map f := by
  have collected := collect_map f less items.length items.length {} items
  have merged := mergeAll_map f less
  simp only [sort, List.length_map]
  rw [← merged]
  exact congrArg (fun pending : Pending α => mergeAll less pending.patience pending.runs) collected

end NextOffer.Sorting
