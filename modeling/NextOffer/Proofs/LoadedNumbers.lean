import NextOffer.Proofs.Loading
import NextOffer.Proofs.Preview
import NextOffer.Proofs.WellFormed

/-! # Loaded numbers can be written

A file has no integer with too many digits, since it could not be read otherwise. A text that
is taken for an integer has none either, nor does a whole floating point value. Rules of a file
have a preview, therefore.
-/

namespace NextOffer

namespace Schema.Reader

open Json

variable {α : Type}

/-- What the reader accepts is good, if the value can be written. -/
def Gives (good : α → Prop) (read : Reader α) : Prop :=
  ∀ value found, value.isWritable = true → read value = .accepted found → good found

variable {good : α → Prop} {read : Reader α}

theorem isWritable_of_find? {entries : Fields Value} {key : Key} {spelling : String} {value : Value}
    (writable : (Value.object entries).isWritable = true)
    (located : key.find? entries = some (spelling, value)) : value.isWritable = true := by
  have each := Value.entriesWritable_iff.mp writable
  unfold Key.find? at located
  split at located
  case h_1 preferred =>
      cases located
      exact each _ (Fields.mem_of_get? preferred)
  case h_2 =>
      obtain ⟨_, other, same⟩ := Option.map_eq_some_iff.mp located
      cases same
      exact each _ (Fields.mem_of_get? other)

theorem Gives.optional (gives : Gives good read) {entries : Fields Value} {key : Key}
    {default found : α} (writable : (Value.object entries).isWritable = true)
    (fine : good default) (accepted : optional entries key default read = .accepted found) :
    good found := by
  unfold Reader.optional at accepted
  split at accepted
  case h_1 located =>
      exact gives _ _ (isWritable_of_find? writable located)
        (Checked.under_eq_accepted_iff.mp accepted)
  case h_2 =>
      cases accepted
      exact fine

theorem Gives.nullable (gives : Gives good read) :
    Gives (fun found => ∀ value ∈ found, good value) (nullable read) := by
  intro value found writable accepted
  unfold Reader.nullable at accepted
  split at accepted
  case h_1 =>
      cases accepted
      simp
  case h_2 =>
      cases here : read value with
      | accepted inner =>
          rw [here] at accepted
          cases accepted
          simpa using gives _ _ writable here
      | rejected issues =>
          rw [here] at accepted
          cases accepted

theorem Gives.list (gives : Gives good read) :
    Gives (fun found => ∀ item ∈ found, good item) (list read) := by
  intro value found writable accepted
  cases value with
  | array items =>
      have each := Value.itemsWritable_iff.mp writable
      change listFrom read 0 items = _ at accepted
      clear writable
      generalize 0 = index at accepted
      induction items generalizing index found with
      | nil =>
          cases accepted
          simp
      | cons item rest ih =>
          obtain ⟨first, later⟩ := List.forall_mem_cons.mp each
          obtain ⟨one, others, here, behind, rfl⟩ := Checked.apply_map_eq_accepted_iff.mp accepted
          exact List.forall_mem_cons.mpr
            ⟨gives _ _ first (Checked.under_eq_accepted_iff.mp here), ih _ later _ behind⟩
  | null | bool _ | number _ | string _ | object _ => cases accepted

theorem gives_integer : Gives (fun n => (Number.int n).isWritable = true) integer := by
  intro value found writable accepted
  cases value with
  | bool truth =>
      cases accepted
      cases truth <;> exact Number.isWritable_int_iff.mpr (Number.digit_lt_limit (by decide))
  | number x =>
      cases x with
      | int n =>
          cases accepted
          exact writable
      | real x =>
          simp only [integer] at accepted
          split at accepted
          case isTrue => cases accepted
          case isFalse =>
              split at accepted
              case isTrue => cases accepted
              case isFalse =>
                  split at accepted
                  case isTrue =>
                      cases accepted
                      exact Number.isWritable_truncate x
                  case isFalse => cases accepted
  | string text =>
      simp only [integer] at accepted
      split at accepted
      case h_1 n _ =>
          cases long : isLongNumeral n with
          | true =>
              rw [long] at accepted
              cases accepted
          | false =>
              rw [long] at accepted
              cases accepted
              exact Number.isWritable_int_iff.mpr (by simpa [isLongNumeral] using long)
      case h_2 => cases accepted
  | null | array _ | object _ => cases accepted

theorem gives_number : Gives (fun x => Number.isWritable x = true) number := by
  intro value found writable accepted
  unfold number at accepted
  split at accepted
  case h_1 =>
      cases accepted
      exact writable
  case h_2 =>
      split at accepted
      case h_1 whole =>
          cases accepted
          exact gives_integer _ _ writable whole
      case h_2 =>
          cases accepted
          exact Number.isWritable_real _
      case h_3 => cases accepted

theorem gives_scalar : Gives (fun scalar => scalar.toJson.isWritable = true) Scalar.reader := by
  intro value found writable accepted
  cases value with
  | bool _ | number _ | string _ =>
      cases accepted
      exact writable
  | null | array _ | object _ => cases accepted

theorem gives_literal : Gives (fun literal => literal.toJson.isWritable = true) Literal.reader := by
  intro value found writable accepted
  unfold Literal.reader at accepted
  split at accepted
  case h_1 single here =>
      cases accepted
      refine gives_scalar _ _ writable ?_
      rw [Scalar.reader, here]
  case h_2 items listed =>
      cases accepted
      have each := gives_scalar.list _ _ writable listed
      refine Value.itemsWritable_iff.mpr ?_
      simpa using each
  case h_3 => cases accepted

theorem gives_condition :
    Gives (fun condition => condition.target.isWritable = true) Condition.reader := by
  intro value found writable accepted
  cases value with
  | object entries =>
      obtain ⟨_, literal, named, held, rfl⟩ := Checked.seq_eq_accepted_iff.mp accepted
      obtain ⟨_, _, first, -, rfl⟩ := Checked.seq_eq_accepted_iff.mp named
      obtain ⟨_, -, rfl⟩ := Checked.map_eq_accepted_iff.mp first
      have each := gives_literal.nullable.optional writable (by simp) held
      cases literal with
      | none => rfl
      | some literal => exact each literal rfl
  | null | bool _ | number _ | string _ | array _ => cases accepted

theorem gives_effect : Gives Effect.IsWritable Effect.reader := by
  intro value found writable accepted
  cases value with
  | object entries =>
      simp only [Effect.reader] at accepted
      split at accepted
      case h_1 => cases accepted
      case h_2 =>
          split at accepted
          case h_2 => cases accepted
          case h_1 kind _ =>
              have read := Checked.under_eq_accepted_iff.mp accepted
              cases kind with
              | scoreDelta =>
                  obtain ⟨_, delta, first, held, rfl⟩ := Checked.seq_eq_accepted_iff.mp read
                  obtain ⟨score, -, rfl⟩ := Checked.map_eq_accepted_iff.mp first
                  have short := gives_number.nullable.optional writable (by simp) held
                  intro name found complete
                  obtain ⟨-, same⟩ := Effect.scoreChange?_eq_some_iff.mp complete
                  cases same
                  exact short found rfl
              | addTag | removeTag =>
                  obtain ⟨_, -, rfl⟩ := Checked.map_eq_accepted_iff.mp read
                  intro name found complete
                  cases complete
  | null | bool _ | number _ | string _ | array _ => cases accepted

end Schema.Reader

namespace Rule

/-- The numbers of a rule that are shown can be written. -/
structure IsWritable (rule : Rule) : Prop where
  priority : (Number.int rule.priority).isWritable = true
  targets : ∀ condition ∈ rule.conditions, condition.target.isWritable = true
  effects : ∀ effect ∈ rule.effects, effect.IsWritable

open Schema Reader in
theorem gives_reader : Gives IsWritable reader := by
  intro value found writable accepted
  cases value with
  | object entries =>
      have fields := fields_of_reader accepted
      exact {
        priority := gives_integer.optional writable
          (Number.isWritable_of_lt (by decide +kernel)) fields.priority
        targets := gives_condition.list.optional writable (by simp) fields.conditions
        effects := gives_effect.list.optional writable (by simp) fields.effects }
  | null | bool _ | number _ | string _ | array _ => cases accepted

theorem IsWritable.preview_returns {rule : Rule} (writable : rule.IsWritable) :
    ∃ text, rule.preview = .ok text :=
  preview_returns_iff.mpr (.inr (.inr ⟨writable.targets, writable.effects⟩))

end Rule

namespace Loading

open Json

/-- The records of a file can be written. -/
theorem isWritable_readArray {path : FilePath} {content : Option String} {records : List Value}
    (read : readArray path content = .ok records) :
    ∀ record ∈ records, record.isWritable = true := by
  obtain ⟨value, held, kept⟩ := Outcome.bind_eq_ok_iff.mp read
  have writable := Value.isWritable_of_legible (readValue_legible held)
  cases value with
  | array items =>
      cases kept
      exact fun record member =>
        Value.itemsWritable_iff.mp writable record (List.mem_of_mem_filter member)
  | null | bool _ | number _ | string _ | object _ => cases kept

theorem isWritable_rules {path : FilePath} {content : Option String} {rules : List Rule}
    (loaded : Loading.rules path content = .ok rules) : ∀ rule ∈ rules, rule.IsWritable := by
  obtain ⟨records, read, validated⟩ := Outcome.bind_eq_ok_iff.mp loaded
  obtain ⟨found, valid, checked⟩ := Outcome.bind_eq_ok_iff.mp validated
  obtain ⟨_, -, same⟩ := Outcome.bind_eq_ok_iff.mp checked
  cases same
  have writable := isWritable_readArray read
  have pairs := validate_eq_ok_iff.mp valid
  clear loaded validated valid checked read
  induction pairs with
  | nil => simp
  | cons accepted _ ih =>
      obtain ⟨first, later⟩ := List.forall_mem_cons.mp writable
      exact List.forall_mem_cons.mpr ⟨Rule.gives_reader _ _ first accepted, ih later⟩

end Loading

end NextOffer
