import Mathlib.Data.List.Forall2
import NextOffer.Proofs.Number.Line
import NextOffer.Proofs.Sorting.Naturality
import NextOffer.Proofs.Stability
import NextOffer.Ranking.Basic

/-! # The order of a ranking

Scores with a place on the line have one stable order; a NaN has no place, and a comparison
with it decides nothing. The decision is compared first, and that part of the order holds in
any case.
-/

namespace NextOffer

namespace Ranking

/-- Nothing shown comes after something hidden. -/
def ShownFirst (first second : Decision) : Prop := second = .shown → first = .shown

theorem ShownFirst.antisymm {a b : Decision} (first : ShownFirst a b) (second : ShownFirst b a) :
    a = b := by
  cases a <;> cases b <;> simp_all [ShownFirst]

/-- Comparing for a ranking never contradicts the decisions, whatever the scores are. -/
theorem respects_precedes {α : Type u} (key : α → Decision × Number) :
    Sorting.Respects (fun a b => precedes (key a) (key b))
      fun a b => ShownFirst (key a).1 (key b).1 where
  trans first second shown := first (second shown)
  of_less {a b} less := by
    simp only [precedes] at less
    split at less
    case isTrue same => exact fun shown => same.trans shown
    case isFalse => exact fun _ => by simpa using less
  of_not_less {a b} less := by
    simp only [precedes] at less
    split at less
    case isTrue same => exact fun shown => same.symm.trans shown
    case isFalse different =>
        have hidden : (key a).1 ≠ .shown := by simpa using less
        exact fun shown => absurd shown hidden

/-- What decides where an item comes in a ranking. -/
abbrev Standing := Decision × Option Place

def standing (key : Decision × Number) : Standing := (key.1, key.2.place?)

/-- Whether one standing may come before another; no place counts as the lowest one. -/
def leads (a b : Standing) : Bool :=
  if a.1 = b.1 then (b.2.getD .lowest).le (a.2.getD .lowest) else a.1 == .shown

theorem leads_refl (a : Standing) : leads a a = true := by
  simp [leads, Place.le_refl]

theorem leads_trans (a b c : Standing) (first : leads a b = true) (second : leads b c = true) :
    leads a c = true := by
  obtain ⟨decision, place⟩ := a
  obtain ⟨decision', place'⟩ := b
  obtain ⟨decision'', place''⟩ := c
  cases decision <;> cases decision' <;> cases decision'' <;> simp_all [leads]
  all_goals exact Place.le_trans second first

theorem leads_total (a b : Standing) : (leads a b || leads b a) = true := by
  obtain ⟨decision, place⟩ := a
  obtain ⟨decision', place'⟩ := b
  cases decision <;> cases decision' <;> simp [leads]
  all_goals exact Place.le_total _ _

theorem leads_antisymm {a b : Standing} (first : leads a b = true) (second : leads b a = true) :
    a.1 = b.1 ∧ a.2.getD .lowest = b.2.getD .lowest := by
  obtain ⟨decision, place⟩ := a
  obtain ⟨decision', place'⟩ := b
  cases decision <;> cases decision' <;> simp_all [leads]
  all_goals exact Place.le_antisymm second first

theorem leads_standing_iff {a b : Decision × Number} (placed : a.2.place?.isSome)
    (placed' : b.2.place?.isSome) :
    leads (standing a) (standing b) = true ↔
      ShownFirst a.1 b.1 ∧ (a.1 = b.1 → b.2.le a.2 = true) := by
  obtain ⟨p, atP⟩ := Option.isSome_iff_exists.mp placed
  obtain ⟨q, atQ⟩ := Option.isSome_iff_exists.mp placed'
  by_cases same : a.1 = b.1
  · simp [leads, standing, Number.le, ShownFirst, same, atP, atQ]
  · cases first : a.1 <;> cases second : b.1 <;> simp_all [leads, standing, ShownFirst]

theorem not_precedes_eq_leads {a b : Decision × Number} (placed : a.2.place?.isSome)
    (placed' : b.2.place?.isSome) : (!precedes b a) = leads (standing a) (standing b) := by
  rw [Bool.eq_iff_iff, leads_standing_iff placed placed']
  by_cases same : b.1 = a.1
  · simp only [precedes, same, if_true, Number.lt_neg, Number.not_lt placed placed']
    simp [ShownFirst]
  · cases first : a.1 <;> cases second : b.1 <;> simp_all [precedes, ShownFirst]

variable {α : Type u} {β : Type v} {key : α → Decision × Number} {items : List α}

/-- Every item has a number with a place. -/
def Placed (key : α → Decision × Number) (items : List α) : Prop :=
  ∀ item ∈ items, (key item).2.place?.isSome

theorem Placed.filter (placed : Placed key items) (keep : α → Bool) :
    Placed key (items.filter keep) :=
  fun item member => placed item (List.mem_filter.mp member).1

def leadsBy (key : α → Decision × Number) (a b : α) : Bool :=
  leads (standing (key a)) (standing (key b))

theorem leadsBy_trans (key : α → Decision × Number) (a b c : α) (first : leadsBy key a b = true)
    (second : leadsBy key b c = true) : leadsBy key a c = true :=
  leads_trans _ _ _ first second

theorem leadsBy_total (key : α → Decision × Number) (a b : α) :
    (leadsBy key a b || leadsBy key b a) = true :=
  leads_total _ _

theorem order_eq_mergeSort (placed : Placed key items) :
    order key items = items.mergeSort (leadsBy key) := by
  have all : items.all fun item => (key item).2.place?.isSome := List.all_eq_true.mpr placed
  have agree : ∀ a ∈ items, ∀ b ∈ items, (!precedes (key b) (key a)) = leadsBy key a b :=
    fun a inA b inB => not_precedes_eq_leads (placed a inA) (placed b inB)
  have same := @List.map_mergeSort _ _ _ _ id items agree
  rw [List.map_id, List.map_id] at same
  simpa only [order, all, if_true] using same

theorem order_perm (key : α → Decision × Number) (items : List α) :
    (order key items).Perm items := by
  simp only [order]
  split
  case isTrue => exact List.mergeSort_perm _ _
  case isFalse => exact (Sorting.arranged_sort (respects_precedes key) items).same

theorem order_map {f : β → α} {items : List β} (placed : Placed (fun item => key (f item)) items) :
    order key (items.map f) = (order (fun item => key (f item)) items).map f := by
  have placed' : Placed key (items.map f) := by
    intro item member
    obtain ⟨source, inside, rfl⟩ := List.mem_map.mp member
    exact placed source inside
  rw [order_eq_mergeSort placed, order_eq_mergeSort placed']
  exact (@List.map_mergeSort _ _ (leadsBy fun item => key (f item)) (leadsBy key) f items
    fun _ _ _ _ => rfl).symm

theorem map_order (key : α → Decision × Number) (f : β → α) (items : List β) :
    order key (items.map f) = (order (fun item => key (f item)) items).map f := by
  by_cases placed : Placed (fun item => key (f item)) items
  · exact order_map placed
  · have nowhere : items.all (fun item => (key (f item)).2.place?.isSome) = false := by
      rw [← Bool.not_eq_true, List.all_eq_true]
      exact placed
    simp only [order, List.all_map, Function.comp_def, nowhere, Bool.false_eq_true, if_false]
    exact Sorting.sort_map f _ items

theorem forall₂_order {key' : β → Decision × Number} {related : α → β → Prop}
    (agree : ∀ a b, related a b → key a = key' b) {others : List β}
    (lined : List.Forall₂ related items others) :
    List.Forall₂ related (order key items) (order key' others) := by
  obtain ⟨pairs, rfl, rfl⟩ : ∃ pairs : List { pair : α × β // related pair.1 pair.2 },
      pairs.map (·.1.1) = items ∧ pairs.map (·.1.2) = others := by
    induction lined with
    | nil => exact ⟨[], rfl, rfl⟩
    | @cons a b _ _ first _ ih =>
        obtain ⟨pairs, rfl, rfl⟩ := ih
        exact ⟨⟨(a, b), first⟩ :: pairs, rfl, rfl⟩
  have keys : (fun pair : { pair : α × β // related pair.1 pair.2 } => key pair.1.1) =
      fun pair => key' pair.1.2 := funext fun pair => agree _ _ pair.2
  rw [map_order, map_order, keys, List.forall₂_map_left_iff, List.forall₂_map_right_iff]
  exact List.forall₂_same.mpr fun pair _ => pair.2

theorem pairwise_order (placed : Placed key items) :
    (order key items).Pairwise fun a b =>
      ShownFirst (key a).1 (key b).1 ∧ ((key a).1 = (key b).1 → (key b).2.le (key a).2 = true) := by
  have sorted : (order key items).Pairwise fun a b => leadsBy key a b = true := by
    rw [order_eq_mergeSort placed]
    exact List.pairwise_mergeSort (leadsBy_trans key) (leadsBy_total key) items
  refine sorted.imp_of_mem fun inA inB led => ?_
  have same := order_perm key items
  exact (leads_standing_iff (placed _ (same.subset inA)) (placed _ (same.subset inB))).mp led

theorem filter_order (placed : Placed key items) (k : Standing) :
    (order key items).filter (fun item => standing (key item) = k) =
      items.filter fun item => standing (key item) = k := by
  rw [order_eq_mergeSort placed]
  refine Stability.filter_mergeSort (leadsBy_trans key) (leadsBy_total key) _ ?_ items
  intro a b atK atK'
  rw [leadsBy, of_decide_eq_true atK, of_decide_eq_true atK']
  exact leads_refl k

/-- With places, leaving items out does not change the order of the others. -/
theorem order_filter (placed : Placed key items) (keep : α → Bool) :
    order key (items.filter keep) = (order key items).filter keep := by
  rw [order_eq_mergeSort placed, order_eq_mergeSort (placed.filter keep)]
  -- Items that lead each other agree in this key.
  let level (item : α) : Decision × Place := ((key item).1, (key item).2.place?.getD .lowest)
  let ahead (a b : Decision × Place) : Bool := leads (a.1, some a.2) (b.1, some b.2)
  have antisymm {a b : Decision × Place} (first : ahead a b = true) (second : ahead b a = true) :
      a = b := by
    obtain ⟨decided, level⟩ := leads_antisymm first second
    exact Prod.ext decided level
  exact @Stability.mergeSort_filter _ _ _ level ahead (fun _ _ _ => leads_trans _ _ _)
    (fun _ _ => leads_total _ _) antisymm keep items

/-- Nothing shown comes after something hidden, with or without places. -/
theorem shownFirst_order (key : α → Decision × Number) (items : List α) :
    (order key items).Pairwise fun a b => ShownFirst (key a).1 (key b).1 := by
  by_cases all : items.all fun item => (key item).2.place?.isSome
  · exact (pairwise_order (List.all_eq_true.mp all)).imp And.left
  · simp only [order, all, Bool.false_eq_true, if_false]
    exact (Sorting.arranged_sort (respects_precedes key) items).ordered

end Ranking

end NextOffer
