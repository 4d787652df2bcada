/-! # Stable arrangements

A stable sort keeps the order of entries that compare alike, whatever else the list holds.
Conversely an ordered list is known as soon as each of its parts of one key is known: there
is exactly one stable arrangement. So it makes no difference whether entries are left out
before or after sorting.
-/

namespace NextOffer.Stability

variable {α : Type u} {κ : Type v} {β : Type w}

/-- Sorting keeps every part whose entries compare alike. -/
theorem filter_mergeSort {le : α → α → Bool} (trans : ∀ a b c, le a b → le b c → le a c)
    (total : ∀ a b, le a b || le b a) (part : α → Bool)
    (alike : ∀ a b, part a → part b → le a b) (entries : List α) :
    (entries.mergeSort le).filter part = entries.filter part := by
  have ordered : (entries.filter part).Pairwise fun a b => le a b :=
    List.pairwise_of_forall_mem_list fun a inA b inB =>
      alike a b (List.mem_filter.mp inA).2 (List.mem_filter.mp inB).2
  have kept : (entries.filter part).Sublist (entries.mergeSort le) :=
    List.sublist_mergeSort trans total ordered List.filter_sublist
  have inside : (entries.filter part).Sublist ((entries.mergeSort le).filter part) := by
    simpa only [List.filter_filter, Bool.and_self] using kept.filter part
  have size : (entries.filter part).length = ((entries.mergeSort le).filter part).length :=
    ((List.mergeSort_perm entries le).filter part).length_eq.symm
  exact (inside.eq_of_length size).symm

variable [DecidableEq κ] (key : α → κ) {r : κ → κ → Prop}

theorem pairwise_of_filter {before : α → α → Prop} {entries : List α}
    (each : ∀ k, (entries.filter fun a => key a = k).Pairwise before) :
    entries.Pairwise fun a b => key a = key b → before a b := by
  simp only [List.pairwise_filter, decide_eq_true_eq] at each
  rw [List.pairwise_iff_getElem]
  intro i j inside inside' earlier same
  exact List.pairwise_iff_getElem.mp (each (key entries[j])) i j inside inside' earlier same rfl

private theorem head_leads {first : α} {rest : List α}
    (ordered : (first :: rest).Pairwise fun a b => r (key a) (key b)) {k : κ}
    (present : (first :: rest).filter (fun a => key a = k) ≠ []) :
    key first = k ∨ r (key first) k := by
  obtain ⟨found, inside⟩ := List.exists_mem_of_ne_nil _ present
  obtain ⟨member, keyed⟩ := List.mem_filter.mp inside
  have keyed : key found = k := of_decide_eq_true keyed
  rcases List.mem_cons.mp member with rfl | member
  · exact .inl keyed
  · exact .inr (keyed ▸ (List.pairwise_cons.mp ordered).1 found member)

theorem map_eq_of_filter_eq (antisymm : ∀ {a b}, r a b → r b a → a = b) (view : α → β)
    {first second : List α} (ordered : first.Pairwise fun a b => r (key a) (key b))
    (ordered' : second.Pairwise fun a b => r (key a) (key b))
    (same : ∀ k, (first.filter fun a => key a = k).map view =
      (second.filter fun a => key a = k).map view) :
    first.map view = second.map view := by
  induction first generalizing second with
  | nil =>
      cases second with
      | nil => rfl
      | cons b rest => simpa using same (key b)
  | cons a front ih =>
      cases second with
      | nil => simpa using same (key a)
      | cons b rest =>
          have present : (b :: rest).filter (fun c => key c = key a) ≠ [] := by
            intro empty
            simpa [empty] using same (key a)
          have present' : (a :: front).filter (fun c => key c = key b) ≠ [] := by
            intro empty
            simpa [empty] using (same (key b)).symm
          have keys : key a = key b := by
            rcases head_leads key ordered present' with keys | below
            · exact keys
            · rcases head_leads key ordered' present with keys | above
              · exact keys.symm
              · exact antisymm below above
          have heads := same (key a)
          simp only [List.filter_cons, keys, decide_true, if_true, List.map_cons,
            List.cons.injEq] at heads
          have tails : front.map view = rest.map view := by
            refine ih ordered.of_cons ordered'.of_cons fun k => ?_
            by_cases matched : key b = k
            · rw [← matched]
              exact heads.2
            · simpa [List.filter_cons, keys, matched] using same k
          rw [List.map_cons, List.map_cons, heads.1, tails]

/-- What is left of a list after sorting is what sorting makes of what is left. -/
theorem mergeSort_filter {le : κ → κ → Bool} (trans : ∀ a b c, le a b → le b c → le a c)
    (total : ∀ a b, le a b || le b a) (antisymm : ∀ {a b}, le a b → le b a → a = b)
    (keep : α → Bool) (entries : List α) :
    (entries.filter keep).mergeSort (fun a b => le (key a) (key b)) =
      (entries.mergeSort fun a b => le (key a) (key b)).filter keep := by
  have trans' (a b c : α) := trans (key a) (key b) (key c)
  have total' (a b : α) := total (key a) (key b)
  have parts (k : κ) (list : List α) :
      (list.mergeSort fun a b => le (key a) (key b)).filter (fun a => key a = k) =
        list.filter fun a => key a = k := by
    refine filter_mergeSort trans' total' _ ?_ list
    intro a b atK atK'
    rw [of_decide_eq_true atK, of_decide_eq_true atK']
    simpa using total k k
  have same := map_eq_of_filter_eq key antisymm id
    (List.pairwise_mergeSort trans' total' (entries.filter keep))
    ((List.pairwise_mergeSort trans' total' entries).filter keep) ?_
  · simpa only [List.map_id] using same
  · intro k
    have swapped (list : List α) : (list.filter keep).filter (fun a => key a = k) =
        (list.filter fun a => key a = k).filter keep := by
      simp only [List.filter_filter, Bool.and_comm]
    rw [parts, swapped, swapped, parts]

end NextOffer.Stability
