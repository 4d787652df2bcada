import NextOffer.Json.Parser
import NextOffer.Proofs.Fields

/-! # Values inside values

Most of what is asked of a JSON value is asked of every value inside it, at any depth: that no
object has a name twice, that integers are not too long for a text, that there is no floating
point value.
-/

namespace NextOffer.Json

/-- A value inside another, at any depth, or the value itself. -/
inductive Within (part : Value) : Value → Prop where
  | self : Within part part
  | item {item : Value} {items : List Value} (member : item ∈ items)
      (inside : Within part item) : Within part (.array items)
  | entry {entry : String × Value} {entries : List (String × Value)} (member : entry ∈ entries)
      (inside : Within part entry.2) : Within part (.object entries)

namespace Value

/-- A property that a value and all values inside it have. -/
def Everywhere (holds : Value → Prop) (value : Value) : Prop :=
  ∀ part, Within part value → holds part

namespace Everywhere

variable {holds more : Value → Prop} {value : Value} {items : List Value}
  {entries : List (String × Value)}

theorem root (all : value.Everywhere holds) : holds value := all value .self

theorem item (all : (array items).Everywhere holds) {item : Value} (member : item ∈ items) :
    item.Everywhere holds :=
  fun part inside => all part (.item member inside)

theorem entry (all : (object entries).Everywhere holds) {entry : String × Value}
    (member : entry ∈ entries) : entry.2.Everywhere holds :=
  fun part inside => all part (.entry member inside)

theorem ofAtom (root : holds value) (noArray : ∀ items, value ≠ .array items)
    (noObject : ∀ entries, value ≠ .object entries) : value.Everywhere holds := by
  intro part inside
  cases inside with
  | self => exact root
  | item => exact (noArray _ rfl).elim
  | entry => exact (noObject _ rfl).elim

theorem ofItems (root : holds (.array items))
    (inner : ∀ item ∈ items, item.Everywhere holds) : (array items).Everywhere holds := by
  intro part inside
  cases inside with
  | self => exact root
  | item member inside => exact inner _ member _ inside

theorem ofEntries (root : holds (.object entries))
    (inner : ∀ entry ∈ entries, entry.2.Everywhere holds) :
    (object entries).Everywhere holds := by
  intro part inside
  cases inside with
  | self => exact root
  | entry member inside => exact inner _ member _ inside

theorem imp (weaker : ∀ part, holds part → more part) (all : value.Everywhere holds) :
    value.Everywhere more :=
  fun part inside => weaker part (all part inside)

theorem and (first : value.Everywhere holds) (second : value.Everywhere more) :
    value.Everywhere fun part => holds part ∧ more part :=
  fun part inside => ⟨first part inside, second part inside⟩

end Everywhere

section Shapes

variable {holds : Value → Prop}

@[simp] theorem everywhere_null : null.Everywhere holds ↔ holds null :=
  ⟨Everywhere.root, fun root => .ofAtom root nofun nofun⟩

@[simp] theorem everywhere_bool {truth : Bool} :
    (bool truth).Everywhere holds ↔ holds (bool truth) :=
  ⟨Everywhere.root, fun root => .ofAtom root nofun nofun⟩

@[simp] theorem everywhere_number {x : Number} :
    (number x).Everywhere holds ↔ holds (number x) :=
  ⟨Everywhere.root, fun root => .ofAtom root nofun nofun⟩

@[simp] theorem everywhere_string {text : String} :
    (string text).Everywhere holds ↔ holds (string text) :=
  ⟨Everywhere.root, fun root => .ofAtom root nofun nofun⟩

@[simp] theorem everywhere_array {items : List Value} :
    (array items).Everywhere holds ↔
      holds (array items) ∧ ∀ item ∈ items, item.Everywhere holds :=
  ⟨fun all => ⟨all.root, fun _ member => all.item member⟩, fun ⟨root, inner⟩ => .ofItems root inner⟩

@[simp] theorem everywhere_object {entries : List (String × Value)} :
    (object entries).Everywhere holds ↔
      holds (object entries) ∧ ∀ entry ∈ entries, entry.2.Everywhere holds :=
  ⟨fun all => ⟨all.root, fun _ member => all.entry member⟩,
    fun ⟨root, inner⟩ => .ofEntries root inner⟩

theorem everywhere_strings {texts : List String} :
    (strings texts).Everywhere holds ↔
      holds (strings texts) ∧ ∀ text ∈ texts, holds (string text) := by
  simp [strings]

theorem everywhere_ofNumbers {entries : Fields Number} :
    (ofNumbers entries).Everywhere holds ↔
      holds (ofNumbers entries) ∧ ∀ entry ∈ entries, holds (number entry.2) := by
  simp only [ofNumbers, everywhere_object, Fields.mapValues, List.forall_mem_map,
    everywhere_number]

end Shapes

/-- If the value is an object, no name is there twice. -/
def HasDistinctNames : Value → Prop
  | .object entries => (Fields.names entries).Nodup
  | _ => True

theorem distinct_ofNumbers {entries : Fields Number} (distinct : entries.names.Nodup) :
    (ofNumbers entries).Everywhere HasDistinctNames := by
  refine everywhere_ofNumbers.mpr ⟨?_, fun _ _ => trivial⟩
  rwa [ofNumbers, HasDistinctNames, Fields.names_mapValues]

theorem distinct_strings (texts : List String) :
    (strings texts).Everywhere HasDistinctNames :=
  everywhere_strings.mpr ⟨trivial, fun _ _ => trivial⟩

/-- If the value is an integer, it has not too many digits for a text. -/
def HasShortInteger : Value → Prop
  | .number (.int n) => n.natAbs < Nat.pow 10 digitLimit
  | _ => True

/-- The value is no floating point value. -/
def HasNoReal : Value → Prop
  | .number (.real _) => False
  | _ => True

/-- Part of a value that a text can hold. -/
def IsLegible (value : Value) : Prop := value.HasDistinctNames ∧ value.HasShortInteger

/-- Part of a value that a text keeps exactly. -/
def IsExact (value : Value) : Prop :=
  value.HasDistinctNames ∧ value.HasShortInteger ∧ value.HasNoReal

theorem Everywhere.legible {value : Value} (exact : value.Everywhere IsExact) :
    value.Everywhere IsLegible :=
  exact.imp fun _ part => ⟨part.1, part.2.1⟩

end Value

end NextOffer.Json
