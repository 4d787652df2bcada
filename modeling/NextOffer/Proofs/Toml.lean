import NextOffer.Proofs.Fields
import NextOffer.Settings.Layers

/-! # Documents of TOML have no name twice

A statement of a document changes one table, and a name comes into a table only where it is
missing. So no table of a document has a name twice, at any depth, and the same is so for tables
inside values.
-/

namespace NextOffer

namespace Setting

/-- No table inside the setting has a name twice, at any depth. -/
inductive Distinct : Setting → Prop where
  | plain (value : Json.Value) : Distinct (.plain value)
  | moment (kind : MomentKind) : Distinct (.moment kind)
  | list {items : List Setting} (inner : ∀ item ∈ items, Distinct item) : Distinct (.list items)
  | table {entries : List (String × Setting)} (names : (Fields.names entries).Nodup)
      (inner : ∀ entry ∈ entries, Distinct entry.2) : Distinct (.table entries)

namespace Distinct

variable {entries : Fields Setting} {name : String} {value : Setting}

theorem nil : Distinct (.table []) := .table .nil nofun

theorem nodup (distinct : Distinct (.table entries)) : entries.names.Nodup := by
  cases distinct with
  | table names => exact names

theorem get? (distinct : Distinct (.table entries)) (found : entries.get? name = some value) :
    Distinct value := by
  cases distinct with
  | table _ inner => exact inner _ (Fields.mem_of_get? found)

theorem item {items : List Setting} (distinct : Distinct (.list items)) (member : value ∈ items) :
    Distinct value := by
  cases distinct with
  | list inner => exact inner _ member

theorem set (distinct : Distinct (.table entries)) (fresh : Distinct value) (name : String) :
    Distinct (.table (entries.set name value)) := by
  cases distinct with
  | table names inner =>
      refine .table (Fields.nodup_names_set names name value) fun entry member => ?_
      rcases Fields.mem_set member with old | rfl
      · exact inner _ old
      · exact fresh

end Distinct

end Setting

namespace Toml

open Setting

variable {table changed : Fields Setting} {item : Setting}

/-- A table without names twice is changed to such a table. -/
def KeepsDistinct (change : Fields Setting → Option (Fields Setting)) : Prop :=
  ∀ table changed, Distinct (.table table) → change table = some changed →
    Distinct (.table changed)

theorem KeepsDistinct.changeAt {change : Fields Setting → Option (Fields Setting)}
    (keeps : KeepsDistinct change) (path : TablePath) : KeepsDistinct (changeAt change path) := by
  induction path with
  | nil => exact keeps
  | cons name rest ih =>
      intro table changed distinct done
      rw [Toml.changeAt] at done
      split at done
      case h_1 =>
          obtain ⟨inner, below, rfl⟩ := Option.map_eq_some_iff.mp done
          exact distinct.set (ih _ _ .nil below) name
      case h_2 inner found =>
          obtain ⟨inner, below, rfl⟩ := Option.map_eq_some_iff.mp done
          exact distinct.set (ih _ _ (distinct.get? found) below) name
      case h_3 items found =>
          split at done
          case h_1 last isLast =>
              obtain ⟨inner, below, rfl⟩ := Option.map_eq_some_iff.mp done
              have listed := distinct.get? found
              have below := ih _ _ (listed.item (List.mem_of_getLast? isLast)) below
              refine distinct.set (.list fun item member => ?_) name
              rcases List.mem_append.mp member with before | new
              · exact listed.item (List.dropLast_subset _ before)
              · exact List.mem_singleton.mp new ▸ below
          case h_2 => cases done
      case h_4 => cases done

theorem keepsDistinct_addNew (name : String) (fresh : Distinct item) :
    KeepsDistinct (addNew name item) := by
  intro table changed distinct done
  unfold addNew at done
  split at done
  case isTrue => cases done
  case isFalse =>
      cases done
      exact distinct.set fresh name

theorem keepsDistinct_addItem (name : String) : KeepsDistinct (addItem name) := by
  intro table changed distinct done
  have empty : ∀ item ∈ [Setting.table []], Distinct item := by simp [Distinct.nil]
  unfold addItem at done
  split at done
  case h_1 =>
      cases done
      exact distinct.set (.list empty) name
  case h_2 items found =>
      cases done
      refine distinct.set (.list fun item member => ?_) name
      rcases List.mem_append.mp member with before | new
      · exact (distinct.get? found).item before
      · exact empty item new
  case h_3 => cases done

theorem distinct_assignInline {fixed : List TablePath} {key : List String}
    (distinct : Distinct (.table table)) (fresh : Distinct item)
    (done : assignInline table fixed key item = some changed) : Distinct (.table changed) := by
  unfold assignInline at done
  split at done
  case isTrue => cases done
  case isFalse => exact (keepsDistinct_addNew _ fresh).changeAt _ _ _ distinct done

/-! ## Values -/

/-- Whatever is read with so much fuel has no name twice. -/
structure DistinctAt (fuel : Nat) : Prop where
  value : ∀ {cs item rest}, value fuel cs = some (item, rest) → Distinct item
  items : ∀ {cs found rest}, items fuel cs = some (found, rest) → ∀ item ∈ found, Distinct item
  entries : ∀ {table fixed cs found rest}, Distinct (.table table) →
    entries fuel table fixed cs = some (found, rest) → Distinct (.table found)

namespace DistinctAt

variable {fuel : Nat} {cs rest : List Char}

theorem zero : DistinctAt 0 where
  value read := by cases read
  items read := by cases read
  entries _ read := by cases read

theorem next_value (distinct : DistinctAt fuel)
    (read : Toml.value (fuel + 1) cs = some (item, rest)) : Distinct item := by
  rw [Toml.value] at read
  split_ifs at read
  · obtain ⟨_, _, same⟩ := Option.map_eq_some_iff.mp read
    cases same
    exact .plain _
  · cases read
    exact .plain _
  · cases read
    exact .plain _
  · obtain ⟨after, _, read⟩ := Option.bind_eq_some_iff.mp read
    split_ifs at read
    · cases read
      exact .list nofun
    · obtain ⟨_, inner, same⟩ := Option.bind_eq_some_iff.mp read
      cases same
      exact .list (distinct.items inner)
  · dsimp only at read
    split_ifs at read
    · cases read
      exact .nil
    · obtain ⟨_, inner, same⟩ := Option.bind_eq_some_iff.mp read
      cases same
      exact distinct.entries .nil inner
  · split at read
    case h_1 =>
        obtain ⟨_, _, same⟩ := Option.map_eq_some_iff.mp read
        cases same
        exact .moment _
    case h_2 =>
        split at read
        case h_1 =>
            cases read
            exact .moment _
        case h_2 =>
            obtain ⟨_, _, same⟩ := Option.map_eq_some_iff.mp read
            cases same
            exact .plain _

theorem next_items (distinct : DistinctAt fuel) {found : List Setting}
    (read : Toml.items (fuel + 1) cs = some (found, rest)) : ∀ item ∈ found, Distinct item := by
  rw [Toml.items] at read
  obtain ⟨⟨first, behind⟩, here, read⟩ := Option.bind_eq_some_iff.mp read
  obtain ⟨after, _, read⟩ := Option.bind_eq_some_iff.mp read
  have alone : ∀ item ∈ [first], Distinct item := by simpa using distinct.value here
  split_ifs at read
  · cases read
    exact alone
  · cases read
  · obtain ⟨next, _, read⟩ := Option.bind_eq_some_iff.mp read
    split_ifs at read
    · cases read
      exact alone
    · obtain ⟨_, later, same⟩ := Option.bind_eq_some_iff.mp read
      cases same
      exact List.forall_mem_cons.mpr ⟨distinct.value here, distinct.items later⟩

theorem next_entries (distinct : DistinctAt fuel) {fixed : List TablePath}
    {found : Fields Setting} (before : Distinct (.table table))
    (read : Toml.entries (fuel + 1) table fixed cs = some (found, rest)) :
    Distinct (.table found) := by
  rw [Toml.entries] at read
  obtain ⟨⟨path, behind⟩, _, read⟩ := Option.bind_eq_some_iff.mp read
  dsimp only at read
  split at read
  case isTrue => cases read
  obtain ⟨⟨first, after⟩, here, read⟩ := Option.bind_eq_some_iff.mp read
  obtain ⟨longer, assigned, read⟩ := Option.bind_eq_some_iff.mp read
  have longer := distinct_assignInline before (distinct.value here) assigned
  dsimp only at read
  split at read
  case isTrue =>
      cases read
      exact longer
  case isFalse =>
      split at read
      case isTrue => cases read
      case isFalse => exact distinct.entries longer read

end DistinctAt

theorem distinctAt (fuel : Nat) : DistinctAt fuel := by
  induction fuel with
  | zero => exact .zero
  | succ fuel ih => exact ⟨ih.next_value, ih.next_items, ih.next_entries⟩

/-! ## Statements -/

/-- No table of the document has a name twice. -/
abbrev Document.Distinct (document : Document) : Prop := Setting.Distinct (.table document.root)

section

variable {document after : Document} {header header' : TablePath} {path : TablePath}
  {cs rest : List Char}

theorem Document.Distinct.assign (distinct : document.Distinct) (fresh : Setting.Distinct item)
    {key : List String} (done : document.assign header key item = some after) :
    after.Distinct := by
  unfold Document.assign at done
  dsimp only at done
  split at done
  case isTrue => cases done
  split at done
  case isTrue => cases done
  obtain ⟨root, made, same⟩ := Option.bind_eq_some_iff.mp done
  cases same
  exact (keepsDistinct_addNew _ fresh).changeAt _ _ _ distinct made

theorem Document.Distinct.beginTable (distinct : document.Distinct)
    (done : document.beginTable path = some after) : after.Distinct := by
  unfold Document.beginTable at done
  split at done
  case isTrue => cases done
  obtain ⟨root, made, same⟩ := Option.bind_eq_some_iff.mp done
  cases same
  have keeps : KeepsDistinct some := by
    rintro table _ distinct ⟨⟩
    exact distinct
  exact keeps.changeAt _ _ _ distinct made

theorem Document.Distinct.beginItem (distinct : document.Distinct)
    (done : document.beginItem path = some after) : after.Distinct := by
  unfold Document.beginItem at done
  split at done
  case isTrue => cases done
  obtain ⟨root, made, same⟩ := Option.bind_eq_some_iff.mp done
  cases same
  exact (keepsDistinct_addItem _).changeAt _ _ _ distinct made

theorem Document.Distinct.statement (distinct : document.Distinct)
    (read : statement document header cs = some (after, header', rest)) : after.Distinct := by
  unfold Toml.statement at read
  split at read
  case isTrue =>
      obtain ⟨⟨path, behind⟩, _, read⟩ := Option.bind_eq_some_iff.mp read
      obtain ⟨begun, done, read⟩ := Option.bind_eq_some_iff.mp read
      have closed : document.closeOpened.Distinct := distinct
      have begun := closed.beginItem done
      split at read <;> cases read
      exact begun
  case isFalse =>
  split at read
  case isTrue =>
      obtain ⟨⟨path, behind⟩, _, read⟩ := Option.bind_eq_some_iff.mp read
      obtain ⟨begun, done, read⟩ := Option.bind_eq_some_iff.mp read
      have closed : document.closeOpened.Distinct := distinct
      have begun := closed.beginTable done
      split at read <;> cases read
      exact begun
  case isFalse =>
  split at read
  case isTrue =>
      cases read
      exact distinct
  case isFalse =>
      obtain ⟨⟨path, behind⟩, _, read⟩ := Option.bind_eq_some_iff.mp read
      dsimp only at read
      split at read
      case isTrue => cases read
      obtain ⟨⟨item, behind⟩, found, read⟩ := Option.bind_eq_some_iff.mp read
      obtain ⟨assigned, done, same⟩ := Option.bind_eq_some_iff.mp read
      cases same
      exact distinct.assign ((distinctAt _).value found) done

theorem Document.Distinct.statements {fuel : Nat} (distinct : document.Distinct)
    (read : statements fuel document header cs = some after) : after.Distinct := by
  induction fuel generalizing document header cs with
  | zero => cases read
  | succ fuel ih =>
      rw [Toml.statements] at read
      obtain ⟨⟨next, header', behind⟩, done, read⟩ := Option.bind_eq_some_iff.mp read
      obtain ⟨behind, _, read⟩ := Option.bind_eq_some_iff.mp read
      have next := distinct.statement done
      split at read
      case h_1 =>
          cases read
          exact next
      case h_2 =>
          split at read
          case isTrue => exact ih next read
          case isFalse => cases read

end

theorem distinct_of_parse? {text : String} {root : Fields Setting}
    (parsed : parse? text = some root) : Setting.Distinct (.table root) := by
  obtain ⟨document, read, rfl⟩ := Option.map_eq_some_iff.mp parsed
  exact Document.Distinct.statements .nil read

end Toml

end NextOffer
