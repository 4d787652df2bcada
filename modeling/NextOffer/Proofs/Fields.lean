import Mathlib.Data.List.Nodup
import NextOffer.Fields

/-! # Tables without repeated names

A sequence of writes leaves a table in which every name is there once, and whose entries are
among the writes. Writes of distinct names leave exactly themselves. A table without repeated
names is its answers, up to the order of its entries.
-/

namespace NextOffer.Fields

variable {α : Type u}

theorem mem_of_get? {entries : Fields α} {name : String} {value : α}
    (found : entries.get? name = some value) : (name, value) ∈ entries := by
  induction entries with
  | nil => cases found
  | cons entry rest ih =>
      rw [get?] at found
      split at found
      case isTrue same =>
          cases same
          cases found
          exact List.mem_cons_self
      case isFalse => exact List.mem_cons_of_mem _ (ih found)

theorem get?_eq_none_iff {entries : Fields α} {name : String} :
    entries.get? name = none ↔ name ∉ entries.names := by
  induction entries with
  | nil => simp [get?, names]
  | cons entry rest ih =>
      rw [get?, names, List.map_cons, List.mem_cons, not_or, ← names, ← ih]
      by_cases same : entry.1 = name
      · simp [same]
      · simp [same, Ne.symm same]

theorem get?_eq_some_iff {entries : Fields α} (distinct : entries.names.Nodup) {name : String}
    {value : α} : entries.get? name = some value ↔ (name, value) ∈ entries := by
  refine ⟨mem_of_get?, fun member => ?_⟩
  induction entries with
  | nil => cases member
  | cons entry rest ih =>
      obtain ⟨fresh, later⟩ := List.nodup_cons.mp distinct
      rw [get?]
      rcases List.mem_cons.mp member with rfl | member
      · rw [if_pos rfl]
      · have other : entry.1 ≠ name := by
          rintro rfl
          exact fresh (List.mem_map.mpr ⟨_, member, rfl⟩)
        rw [if_neg other, ih later member]

theorem perm_iff_get? {entries others : Fields α} (distinct : entries.names.Nodup)
    (distinct' : others.names.Nodup) :
    entries.Perm others ↔ ∀ name, entries.get? name = others.get? name := by
  rw [List.perm_ext_iff_of_nodup (distinct.of_map _) (distinct'.of_map _), Prod.forall]
  refine forall_congr' fun name => ?_
  simp only [← get?_eq_some_iff distinct, ← get?_eq_some_iff distinct']
  exact ⟨Option.ext, fun same value => by rw [same]⟩

theorem nodup_names_of_perm {entries others : Fields α} (distinct : entries.names.Nodup)
    (same : entries.Perm others) : others.names.Nodup :=
  (same.map Prod.fst).nodup_iff.mp distinct

theorem names_mapValues {β : Type v} (f : α → β) (entries : Fields α) :
    (entries.mapValues f).names = entries.names := by
  simp [names, mapValues]

theorem get?_mapValues {β : Type v} (f : α → β) (entries : Fields α) (name : String) :
    (entries.mapValues f).get? name = (entries.get? name).map f := by
  induction entries with
  | nil => rfl
  | cons entry rest ih =>
      by_cases same : entry.1 = name
      · simp [mapValues, get?, same]
      · simpa [mapValues, get?, same] using ih

theorem mem_set {entries : Fields α} {name : String} {value : α} {entry : String × α}
    (member : entry ∈ entries.set name value) : entry ∈ entries ∨ entry = (name, value) := by
  induction entries with
  | nil => exact .inr (List.mem_singleton.mp member)
  | cons first rest ih =>
      rw [set] at member
      split at member
      · rcases List.mem_cons.mp member with same | later
        · exact .inr same
        · exact .inl (List.mem_cons_of_mem _ later)
      · rcases List.mem_cons.mp member with rfl | later
        · exact .inl List.mem_cons_self
        · exact (ih later).imp_left (List.mem_cons_of_mem _)

theorem nodup_names_set {entries : Fields α} (distinct : entries.names.Nodup) (name : String)
    (value : α) : (entries.set name value).names.Nodup := by
  rw [names_set]
  split
  case isTrue => exact distinct
  case isFalse absent =>
      refine List.nodup_append.mpr ⟨distinct, List.nodup_singleton name, ?_⟩
      rintro other member _ last rfl
      exact absent (List.mem_singleton.mp last ▸ member)

theorem set_of_not_mem {entries : Fields α} {name : String} (absent : name ∉ entries.names)
    (value : α) : entries.set name value = entries ++ [(name, value)] := by
  induction entries with
  | nil => rfl
  | cons entry rest ih =>
      simp only [names, List.map_cons, List.mem_cons, not_or] at absent
      simp [set, Ne.symm absent.1, ih absent.2]

theorem set_of_get? {entries : Fields α} {name : String} {value : α}
    (found : entries.get? name = some value) : entries.set name value = entries := by
  induction entries with
  | nil => cases found
  | cons entry rest ih =>
      rw [get?] at found
      rw [set]
      split at found
      case isTrue same =>
          cases same
          cases found
          exact if_pos rfl
      case isFalse other => rw [if_neg other, ih found]

theorem foldl_set_induction {holds : String × α → Prop} (writes : Fields α) {written : Fields α}
    (distinct : written.names.Nodup) (old : ∀ entry ∈ written, holds entry)
    (new : ∀ write ∈ writes, holds write) :
    (names (writes.foldl (fun entries write => entries.set write.1 write.2) written)).Nodup ∧
      ∀ entry ∈ writes.foldl (fun entries write => entries.set write.1 write.2) written,
        holds entry := by
  induction writes generalizing written with
  | nil => exact ⟨distinct, old⟩
  | cons write rest ih =>
      refine ih (nodup_names_set distinct _ _) (fun entry member => ?_)
        fun later member => new later (List.mem_cons_of_mem _ member)
      rcases mem_set member with kept | rfl
      · exact old entry kept
      · exact new _ List.mem_cons_self

theorem nodup_names_ofWrites (writes : Fields α) : (ofWrites writes).names.Nodup :=
  (@foldl_set_induction α (fun _ => True) writes [] .nil (by simp) (by simp)).1

theorem mem_of_mem_ofWrites {writes : Fields α} {entry : String × α}
    (member : entry ∈ ofWrites writes) : entry ∈ writes :=
  (@foldl_set_induction α (· ∈ writes) writes [] .nil (by simp) fun _ => id).2 entry member

theorem get?_foldl_set {writes : Fields α} (distinct : writes.names.Nodup) (written : Fields α)
    (name : String) :
    get? (writes.foldl (fun entries write => entries.set write.1 write.2) written) name =
      (writes.get? name).or (written.get? name) := by
  induction writes generalizing written with
  | nil => rfl
  | cons write rest ih =>
      obtain ⟨fresh, later⟩ := List.nodup_cons.mp distinct
      rw [List.foldl_cons, ih later, get?_set]
      by_cases same : write.1 = name
      · subst same
        simp [get?, get?_eq_none_iff.mpr fresh]
      · simp [get?, same]

theorem get?_filter (keep : String → Bool) (entries : Fields α) (name : String) :
    get? (entries.filter fun entry => keep entry.1) name =
      if keep name then entries.get? name else none := by
  induction entries with
  | nil => simp [get?]
  | cons entry rest ih =>
      by_cases same : entry.1 = name
      · subst same
        cases kept : keep entry.1 <;> simp [get?, kept, ih]
      · cases kept : keep entry.1 <;> simp [get?, kept, ih, same]

theorem foldl_set_of_nodup {written writes : Fields α}
    (distinct : (names (written ++ writes)).Nodup) :
    writes.foldl (fun entries write => entries.set write.1 write.2) written =
      written ++ writes := by
  induction writes generalizing written with
  | nil => simp
  | cons write rest ih =>
      have absent : write.1 ∉ written.names := by
        intro present
        rw [names, List.map_append, List.nodup_append] at distinct
        exact distinct.2.2 _ present _ List.mem_cons_self rfl
      rw [List.foldl_cons, set_of_not_mem absent, ih (by simpa using distinct),
        List.append_assoc]
      rfl

theorem ofWrites_of_nodup {entries : Fields α} (distinct : entries.names.Nodup) :
    ofWrites entries = entries :=
  @foldl_set_of_nodup α [] entries distinct

end NextOffer.Fields
