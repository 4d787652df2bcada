import NextOffer.Condition.Comparison
import NextOffer.Evaluation.Effect
import NextOffer.Proofs.Json.Within
import NextOffer.Proofs.Outcome

/-! # What can be written

An integer can be written when it has no more digits than the limit, and a value when all
integers inside it can. Whatever writes numbers or values has a text exactly then, and fails
with one fault otherwise.
-/

namespace NextOffer

theorem guarded_eq_ok_iff {α : Type u} {guard : Bool} {spelled text : α} :
    (if guard then .ok spelled else .error .tooManyDigits : Except ArithmeticFault α) = .ok text ↔
      guard = true ∧ text = spelled := by
  cases guard <;> simp [eq_comm]

theorem guarded_eq_error_iff {α : Type u} {guard : Bool} {spelled : α} {fault : ArithmeticFault} :
    (if guard then .ok spelled else .error .tooManyDigits : Except ArithmeticFault α) =
        .error fault ↔ fault = .tooManyDigits ∧ guard = false := by
  cases guard <;> simp [eq_comm]

namespace Number

theorem isWritable_int_iff {n : Int} :
    (int n).isWritable = true ↔ n.natAbs < Nat.pow 10 digitLimit := by
  rw [isWritable, decide_eq_true_eq, Nat.pow_eq,
    Nat.length_toDigits_le_iff (by decide) (by decide)]

theorem digit_lt_limit {n : Nat} (digit : n < 10) : n < Nat.pow 10 digitLimit := by
  have positive : digitLimit ≠ 0 := by decide
  generalize digitLimit = limit at *
  exact Nat.lt_of_lt_of_le digit (Nat.le_self_pow positive 10)

@[simp] theorem isWritable_real (x : Binary64) : (real x).isWritable = true := rfl

theorem isWritable_of_isZero {x : Number} (zero : x.isZero = true) : x.isWritable = true := by
  cases x with
  | int n =>
      obtain rfl : n = 0 := by simpa [isZero] using zero
      exact isWritable_int_iff.mpr (digit_lt_limit (by decide))
  | real value => exact isWritable_real value

theorem plain_eq_ok_iff {x : Number} {text : String} :
    x.plain = .ok text ↔ x.isWritable = true ∧ text = x.plainText :=
  guarded_eq_ok_iff

theorem plain_eq_error_iff {x : Number} {fault : ArithmeticFault} :
    x.plain = .error fault ↔ fault = .tooManyDigits ∧ x.isWritable = false :=
  guarded_eq_error_iff

theorem plain_of_isWritable {x : Number} (writable : x.isWritable = true) :
    x.plain = .ok x.plainText :=
  plain_eq_ok_iff.mpr ⟨writable, rfl⟩

end Number

namespace Json

namespace Value

theorem isWritable_number_iff {x : Number} :
    x.isWritable = true ↔ (number x).HasShortInteger := by
  cases x with
  | int n => exact Number.isWritable_int_iff
  | real value => simp [HasShortInteger]

theorem itemsWritable_iff {items : List Value} :
    itemsWritable items = true ↔ ∀ item ∈ items, item.isWritable = true := by
  induction items with
  | nil => simp [itemsWritable]
  | cons item rest ih => simp [itemsWritable, ih]

theorem entriesWritable_iff {entries : List (String × Value)} :
    entriesWritable entries = true ↔ ∀ entry ∈ entries, entry.2.isWritable = true := by
  induction entries with
  | nil => simp [entriesWritable]
  | cons entry rest ih => simp [entriesWritable, ih]

/-- A value can be written exactly when no integer inside it is too long. -/
theorem isWritable_iff (value : Value) :
    value.isWritable = true ↔ value.Everywhere HasShortInteger := by
  cases value with
  | null | bool | string => simp [isWritable, HasShortInteger]
  | number x => rw [isWritable, everywhere_number, isWritable_number_iff]
  | array items =>
      rw [isWritable, itemsWritable_iff, everywhere_array]
      simp only [HasShortInteger, true_and]
      exact forall₂_congr fun item member => isWritable_iff item
  | object entries =>
      rw [isWritable, entriesWritable_iff, everywhere_object]
      simp only [HasShortInteger, true_and]
      exact forall₂_congr fun entry member => isWritable_iff entry.2
termination_by sizeOf value
decreasing_by
  · have := List.sizeOf_lt_of_mem member
    simp only [Value.array.sizeOf_spec]
    omega
  · have := List.sizeOf_lt_of_mem member
    cases entry
    simp only [Value.object.sizeOf_spec, Prod.mk.sizeOf_spec] at this ⊢
    omega

theorem isWritable_of_legible {value : Value} (legible : value.Everywhere IsLegible) :
    value.isWritable = true :=
  (isWritable_iff value).mpr (legible.imp fun _ part => part.2)

theorem isWritable_strings (texts : List String) : (strings texts).isWritable = true := by
  simp [isWritable_iff, HasShortInteger, strings]

theorem foldedText_eq_ok_iff {value : Value} {text : List Char} :
    value.foldedText = .ok text ↔ value.isWritable = true ∧ text = value.folded :=
  guarded_eq_ok_iff

theorem foldedText_eq_error_iff {value : Value} {fault : ArithmeticFault} :
    value.foldedText = .error fault ↔ fault = .tooManyDigits ∧ value.isWritable = false :=
  guarded_eq_error_iff

theorem foldedText_of_isWritable {value : Value} (writable : value.isWritable = true) :
    value.foldedText = .ok value.folded :=
  foldedText_eq_ok_iff.mpr ⟨writable, rfl⟩

end Value

theorem Form.render_eq_ok_iff {form : Form} {value : Value} {text : String} :
    form.render value = .ok text ↔ value.isWritable = true ∧ text = form.text value :=
  guarded_eq_ok_iff

theorem Form.render_of_isWritable {form : Form} {value : Value}
    (writable : value.isWritable = true) : form.render value = .ok (form.text value) :=
  render_eq_ok_iff.mpr ⟨writable, rfl⟩

end Json

/-! ## Descriptions -/

namespace Effect

variable {score : String} {delta old new : Number}

/-- The description of a change, spelled out. -/
def changeSpelling (score : String) (delta old new : Number) : String :=
  s!"{score} {plusSign delta}{delta.plainText} ({old.plainText} → {new.plainText})"

theorem changeText_eq_ok_iff {text : String} :
    changeText score delta old new = .ok text ↔
      (delta.isWritable = true ∧ old.isWritable = true ∧ new.isWritable = true) ∧
        text = changeSpelling score delta old new := by
  unfold changeText Number.plain changeSpelling
  cases delta.isWritable <;> cases old.isWritable <;> cases new.isWritable <;> simp [eq_comm]

theorem changeText_ne_empty {text : String} (told : changeText score delta old new = .ok text) :
    text ≠ "" := by
  rw [(changeText_eq_ok_iff.mp told).2, changeSpelling]
  simp [toString]

theorem changeText_eq_error_iff {fault : ArithmeticFault} :
    changeText score delta old new = .error fault ↔
      fault = .tooManyDigits ∧
        (delta.isWritable = false ∨ old.isWritable = false ∨ new.isWritable = false) := by
  unfold changeText Number.plain
  cases delta.isWritable <;> cases old.isWritable <;> cases new.isWritable <;> simp [eq_comm]

end Effect

end NextOffer
