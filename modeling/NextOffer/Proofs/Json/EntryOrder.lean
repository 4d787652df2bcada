import Mathlib.Data.List.Forall2
import Mathlib.Data.Option.Defs
import Mathlib.Logic.Relation
import NextOffer.Path
import NextOffer.Proofs.Writing

/-! # The order of entries

Two values are the same up to the order of entries when one becomes the other by exchanging
neighbouring entries of objects, at any depth. As long as no object has a name twice, such
values have the same text, the same measure and the same entries under every path, again up
to order.
-/

namespace NextOffer.Json

/-- Two neighbouring entries of one object change places, at some depth. -/
inductive Exchange : Value → Value → Prop where
  | swap (front : Fields Value) (a b : String × Value) (rest : Fields Value) :
      Exchange (.object (front ++ a :: b :: rest)) (.object (front ++ b :: a :: rest))
  | entry (front : Fields Value) (name : String) {v v' : Value} (rest : Fields Value)
      (inside : Exchange v v') :
      Exchange (.object (front ++ (name, v) :: rest)) (.object (front ++ (name, v') :: rest))
  | item (front : List Value) {v v' : Value} (rest : List Value) (inside : Exchange v v') :
      Exchange (.array (front ++ v :: rest)) (.array (front ++ v' :: rest))

/-- The same value up to the order of entries in objects, at any depth. -/
def Reordered : Value → Value → Prop := Relation.ReflTransGen Exchange

/-- The same value up to the order of entries, or none on both sides. -/
abbrev SameEntry : Option Value → Option Value → Prop := Option.Rel Reordered

namespace Value

theorem sortedItems_eq (items : List Value) : sortedItems items = items.map sorted := by
  induction items with
  | nil => rfl
  | cons item rest ih => rw [sortedItems, ih, List.map_cons]

theorem sortedEntries_eq (entries : Fields Value) :
    sortedEntries entries = entries.mapValues sorted := by
  unfold Fields.mapValues
  induction entries with
  | nil => rfl
  | cons entry rest ih => rw [sortedEntries, ih, List.map_cons]

theorem flatItems_eq (items : List Value) : flatItems items = items.map flatChars := by
  induction items with
  | nil => rfl
  | cons item rest ih => rw [flatItems, ih, List.map_cons]

/-- Entries with distinct names are sorted in one way only. -/
theorem mergeSort_eq_of_perm {entries others : Fields Value} (same : entries.Perm others)
    (distinct : entries.names.Nodup) :
    (entries.mergeSort fun a b => decide (a.1 ≤ b.1)) =
      others.mergeSort fun a b => decide (a.1 ≤ b.1) := by
  have trans : ∀ a b c : String × Value, decide (a.1 ≤ b.1) = true →
      decide (b.1 ≤ c.1) = true → decide (a.1 ≤ c.1) = true := by
    intro a b c first second
    rw [decide_eq_true_iff] at first second ⊢
    exact String.le_trans first second
  have total : ∀ a b : String × Value,
      (decide (a.1 ≤ b.1) || decide (b.1 ≤ a.1)) = true := by
    intro a b
    simpa using String.le_total a.1 b.1
  refine List.Perm.eq_of_pairwise ?_ (List.pairwise_mergeSort trans total entries)
    (List.pairwise_mergeSort trans total others)
    ((List.mergeSort_perm _ _).trans (same.trans (List.mergeSort_perm _ _).symm))
  -- Names that are not apart are one name, which has one entry.
  intro a b member member' le le'
  rw [decide_eq_true_iff] at le le'
  rw [List.mem_mergeSort] at member member'
  exact List.inj_on_of_nodup_map distinct member (same.mem_iff.mpr member')
    (String.le_antisymm le le')

theorem everywhere_of_step? {holds : Value → Prop} {v inner : Value} {name : String}
    (all : v.Everywhere holds) (found : v.step? name = some inner) :
    inner.Everywhere holds := by
  have present : v.get? name = some inner := by
    unfold step? at found
    split at found
    · cases found
    · exact found
  cases v with
  | object entries => exact all.entry (Fields.mem_of_get? present)
  | null | bool _ | number _ | string _ | array _ => cases present

theorem everywhere_of_walk? {holds : Value → Prop} {v inner : Value} {names : List String}
    (all : v.Everywhere holds) (found : v.walk? names = some inner) :
    inner.Everywhere holds := by
  induction names generalizing v with
  | nil =>
      cases found
      exact all
  | cons name rest ih =>
      obtain ⟨middle, first, later⟩ := Option.bind_eq_some_iff.mp found
      exact ih (everywhere_of_step? all first) later

end Value

namespace SameEntry

theorem refl (found : Option Value) : SameEntry found found := by
  cases found with
  | none => exact .none
  | some value => exact .some .refl

theorem trans {first second third : Option Value} (same : SameEntry first second)
    (same' : SameEntry second third) : SameEntry first third := by
  cases same with
  | none => exact same'
  | some inner =>
      cases same' with
      | some inner' => exact .some (inner.trans inner')

end SameEntry

theorem perm_swap (front : Fields Value) (a b : String × Value) (rest : Fields Value) :
    (front ++ a :: b :: rest).Perm (front ++ b :: a :: rest) :=
  (List.Perm.swap b a rest).append_left front

namespace Exchange

variable {v v' : Value}

theorem distinct (exchange : Exchange v v') (distinct : v.Everywhere Value.HasDistinctNames) :
    v'.Everywhere Value.HasDistinctNames := by
  induction exchange with
  | swap front a b rest =>
      rw [Value.everywhere_object] at distinct ⊢
      have same := perm_swap front a b rest
      exact ⟨Fields.nodup_names_of_perm distinct.1 same, fun entry member =>
        distinct.2 entry (same.mem_iff.mpr member)⟩
  | entry front name rest _ ih =>
      rw [Value.everywhere_object, List.forall_mem_append, List.forall_mem_cons] at distinct ⊢
      obtain ⟨names, before, inner, after⟩ := distinct
      refine ⟨?_, before, ih inner, after⟩
      simpa [Value.HasDistinctNames, Fields.names] using names
  | item front rest _ ih =>
      rw [Value.everywhere_array, List.forall_mem_append, List.forall_mem_cons] at distinct ⊢
      exact ⟨trivial, distinct.2.1, ih distinct.2.2.1, distinct.2.2.2⟩

theorem sorted_eq (exchange : Exchange v v')
    (distinct : v.Everywhere Value.HasDistinctNames) : v.sorted = v'.sorted := by
  induction exchange with
  | swap front a b rest =>
      have same := (perm_swap front a b rest).map fun entry => (entry.1, entry.2.sorted)
      have names : (Fields.mapValues Value.sorted (front ++ a :: b :: rest)).names.Nodup := by
        rw [Fields.names_mapValues]
        exact distinct.root
      simp only [Value.sorted, Value.sortedEntries_eq]
      exact congrArg Value.object (Value.mergeSort_eq_of_perm same names)
  | entry front name rest _ ih =>
      have inner := distinct.entry (List.mem_append_right front List.mem_cons_self)
      simp only [Value.sorted, Value.sortedEntries_eq, Fields.mapValues, List.map_append,
        List.map_cons, ih inner]
  | item front rest _ ih =>
      have inner := distinct.item (List.mem_append_right front List.mem_cons_self)
      simp only [Value.sorted, Value.sortedItems_eq, List.map_append, List.map_cons, ih inner]

theorem flatChars_eq (exchange : Exchange v v')
    (distinct : v.Everywhere Value.HasDistinctNames) : v.flatChars = v'.flatChars := by
  induction exchange with
  | swap front a b rest =>
      simp only [Value.flatChars, sorted_eq (.swap front a b rest) distinct]
  | entry front name rest inside =>
      simp only [Value.flatChars, sorted_eq (.entry front name rest inside) distinct]
  | item front rest _ ih =>
      -- The texts of items are joined as they are, so objects inside arrays are met here.
      have inner := distinct.item (List.mem_append_right front List.mem_cons_self)
      simp only [Value.flatChars, Value.flatItems_eq, List.map_append, List.map_cons, ih inner]

theorem measure_eq (exchange : Exchange v v') : v.measure = v'.measure := by
  cases exchange <;> rfl

theorem isWritable_eq (exchange : Exchange v v') : v.isWritable = v'.isWritable := by
  rw [Bool.eq_iff_iff]
  induction exchange with
  | swap front a b rest =>
      simp only [Value.isWritable, Value.entriesWritable_iff, List.forall_mem_append,
        List.forall_mem_cons]
      exact and_congr_right' and_left_comm
  | entry front name rest _ ih =>
      simp only [Value.isWritable, Value.entriesWritable_iff, List.forall_mem_append,
        List.forall_mem_cons, ih]
  | item front rest _ ih =>
      simp only [Value.isWritable, Value.itemsWritable_iff, List.forall_mem_append,
        List.forall_mem_cons, ih]

theorem get?_entry (front : Fields Value) (other : String) (rest : Fields Value)
    (inside : Exchange v v') (name : String) :
    SameEntry (Fields.get? (front ++ (other, v) :: rest) name)
      (Fields.get? (front ++ (other, v') :: rest) name) := by
  induction front with
  | nil =>
      simp only [List.nil_append, Fields.get?]
      split
      · exact .some (.single inside)
      · exact .refl _
  | cons first front ih =>
      simp only [List.cons_append, Fields.get?]
      split
      · exact .refl _
      · exact ih

theorem get? (exchange : Exchange v v') (distinct : v.Everywhere Value.HasDistinctNames)
    (name : String) : SameEntry (v.get? name) (v'.get? name) := by
  cases exchange with
  | swap front a b rest =>
      have same := perm_swap front a b rest
      have names' := Fields.nodup_names_of_perm distinct.root same
      simp only [Value.get?, (Fields.perm_iff_get? distinct.root names').mp same name]
      exact .refl _
  | entry front other rest inside => exact get?_entry front other rest inside name
  | item => exact .none

end Exchange

namespace Reordered

variable {v v' v'' : Value}

theorem refl (v : Value) : Reordered v v := Relation.ReflTransGen.refl

theorem trans (first : Reordered v v') (second : Reordered v' v'') : Reordered v v'' :=
  Relation.ReflTransGen.trans first second

theorem entry (front : Fields Value) (name : String) (rest : Fields Value)
    (inside : Reordered v v') :
    Reordered (.object (front ++ (name, v) :: rest))
      (.object (front ++ (name, v') :: rest)) := by
  induction inside with
  | refl => exact .refl _
  | tail _ exchange ih => exact ih.tail (.entry front name rest exchange)

theorem ofPerm {entries others : Fields Value} (same : entries.Perm others) :
    Reordered (.object entries) (.object others) := by
  suffices inFront : ∀ front : Fields Value,
      Reordered (.object (front ++ entries)) (.object (front ++ others)) from inFront []
  induction same with
  | nil => exact fun _ => .refl _
  | cons entry _ ih => exact fun front => by simpa using ih (front ++ [entry])
  | swap a b rest => exact fun front => .single (.swap front b a rest)
  | trans _ _ first second => exact fun front => (first front).trans (second front)

theorem ofEntries {entries others : Fields Value}
    (same : List.Forall₂ (fun a b => a.1 = b.1 ∧ Reordered a.2 b.2) entries others) :
    Reordered (.object entries) (.object others) := by
  suffices inFront : ∀ front : Fields Value,
      Reordered (.object (front ++ entries)) (.object (front ++ others)) from inFront []
  induction same with
  | nil => exact fun _ => .refl _
  | @cons first second rest rest' inside _ ih =>
      intro front
      obtain ⟨name, value⟩ := first
      obtain ⟨name', value'⟩ := second
      obtain ⟨rfl, inside⟩ := inside
      refine (Reordered.entry front name rest inside).trans ?_
      simpa using ih (front ++ [(name, value')])

theorem item (front : List Value) (rest : List Value) (inside : Reordered v v') :
    Reordered (.array (front ++ v :: rest)) (.array (front ++ v' :: rest)) := by
  induction inside with
  | refl => exact .refl _
  | tail _ exchange ih => exact ih.tail (.item front rest exchange)

theorem ofItems {items others : List Value} (same : List.Forall₂ Reordered items others) :
    Reordered (.array items) (.array others) := by
  suffices inFront : ∀ front : List Value,
      Reordered (.array (front ++ items)) (.array (front ++ others)) from inFront []
  induction same with
  | nil => exact fun _ => .refl _
  | @cons first second rest rest' inside _ ih =>
      intro front
      refine (item front rest inside).trans ?_
      simpa using ih (front ++ [second])

theorem distinct (reordered : Reordered v v')
    (distinct : v.Everywhere Value.HasDistinctNames) :
    v'.Everywhere Value.HasDistinctNames := by
  induction reordered with
  | refl => exact distinct
  | tail _ exchange ih => exact exchange.distinct ih

theorem flatChars_eq (reordered : Reordered v v')
    (distinct : v.Everywhere Value.HasDistinctNames) : v.flatChars = v'.flatChars := by
  induction reordered with
  | refl => rfl
  | tail before exchange ih =>
      exact ih.trans (exchange.flatChars_eq (Reordered.distinct before distinct))

theorem isWritable_eq (reordered : Reordered v v') : v.isWritable = v'.isWritable := by
  induction reordered with
  | refl => rfl
  | tail _ exchange ih => exact ih.trans exchange.isWritable_eq

theorem foldedText_eq (reordered : Reordered v v')
    (distinct : v.Everywhere Value.HasDistinctNames) : v.foldedText = v'.foldedText := by
  rw [Value.foldedText, Value.foldedText, Value.folded, Value.folded, reordered.isWritable_eq,
    reordered.flatChars_eq distinct]

theorem measure_eq (reordered : Reordered v v') : v.measure = v'.measure := by
  induction reordered with
  | refl => rfl
  | tail _ exchange ih => exact ih.trans exchange.measure_eq

theorem eq_null_iff (reordered : Reordered v v') : v = .null ↔ v' = .null := by
  induction reordered with
  | refl => rfl
  | tail _ exchange ih =>
      rw [ih]
      cases exchange <;> simp

theorem get? (reordered : Reordered v v') (distinct : v.Everywhere Value.HasDistinctNames)
    (name : String) : SameEntry (v.get? name) (v'.get? name) := by
  induction reordered with
  | refl => exact .refl _
  | tail before exchange ih =>
      exact ih.trans (exchange.get? (Reordered.distinct before distinct) name)

theorem step? (reordered : Reordered v v') (distinct : v.Everywhere Value.HasDistinctNames)
    (name : String) : SameEntry (v.step? name) (v'.step? name) := by
  have found := reordered.get? distinct name
  unfold Value.step?
  cases first : v.get? name <;> cases second : v'.get? name <;> rw [first, second] at found
  case none.none => exact .none
  case none.some => cases found
  case some.none => cases found
  case some.some inner inner' =>
      cases found with
      | some same =>
          by_cases null : inner = .null
          · rw [same.eq_null_iff.mp null, null]
            exact .none
          · have null' := same.eq_null_iff.not.mp null
            simpa [null, null'] using Option.Rel.some same

theorem walk? (reordered : Reordered v v') (distinct : v.Everywhere Value.HasDistinctNames)
    (names : List String) : SameEntry (v.walk? names) (v'.walk? names) := by
  induction names generalizing v v' with
  | nil => exact .some reordered
  | cons name rest ih =>
      have found := reordered.step? distinct name
      simp only [Value.walk?]
      cases first : v.step? name <;> cases second : v'.step? name <;>
        rw [first, second] at found
      case none.none => exact .none
      case none.some => cases found
      case some.none => cases found
      case some.some inner inner' =>
          cases found with
          | some same => exact ih same (Value.everywhere_of_step? distinct first)

end Reordered

end NextOffer.Json
