import NextOffer.Proofs.Evaluation.Overflow

/-! # Conditions that are incomplete

A condition without a source looks at nothing, and one with an unknown sign compares nothing:
neither ever holds. A condition without a literal compares with null. Null is no number and no
list, but it has a text, and the two operators that compare texts meet it in values that have
this text too.
-/

namespace NextOffer

theorem resolve?_empty (profile : Profile) (event : Event) :
    Path.resolve? (evaluationContext profile event) "" = none := rfl

namespace Operator

variable {op : Operator} {value target : Json.Value}

theorem ofWord?_eq_some_iff {sign : String} : ofWord? sign = some op ↔ sign = op.word := by
  constructor
  · intro known
    have same := List.find?_some known
    exact (of_decide_eq_true same).symm
  · rintro rfl
    cases op <;> rfl

theorem order_nan {holds : Binary64 → Binary64 → Bool} (asks : op.order? = some holds)
    (x : Binary64) : holds x .nan = false := by
  cases op <;> cases asks <;> simp [Number.lt, Number.le, Number.place?, Binary64.place?]

theorem compare_nan (asks : op.order?.isSome) (noNumber : target.measure = .ok .nan) :
    op.compare value target ≠ .ok true := by
  obtain ⟨holds, asks⟩ := Option.isSome_iff_exists.mp asks
  simp only [compare, asks, noNumber, Outcome.ok_bind, ne_eq, Outcome.bind_eq_ok_iff]
  rintro ⟨x, -, met⟩
  rw [order_nan asks] at met
  cases met

theorem foldedText_null : Json.Value.null.foldedText = .ok "null".toList := by decide

/-- Only the operators that compare texts meet null, in values that have a text. -/
theorem compare_null_eq_true_iff :
    op.compare value .null = .ok true ↔ value.isWritable = true ∧
      (op = .equal ∧ value.folded = "null".toList ∨
        op = .contains ∧ Text.occursIn "null".toList value.folded = true) := by
  cases op with
  | greater | less | greaterOrEqual | lessOrEqual =>
      simp only [reduceCtorEq, false_and, or_false, and_false, iff_false]
      exact compare_nan rfl rfl
  | equal =>
      simp [compare, order?, Outcome.bind_eq_ok_iff, Json.Value.foldedText_eq_ok_iff,
        foldedText_null]
      exact fun _ => eq_comm
  | contains =>
      simp [compare, order?, Outcome.bind_eq_ok_iff, Json.Value.foldedText_eq_ok_iff,
        foldedText_null]
  | isIn => simp [compare, order?]

end Operator

namespace Condition

variable {condition : Condition} {profile : Profile} {event : Event}

/-- A field of the condition is missing, or its sign is none of the known ones. -/
inductive Incomplete (condition : Condition) : Prop where
  | source (empty : condition.source = "")
  | sign (unknown : Operator.ofWord? condition.sign = none)
  | literal (missing : condition.literal = none)

/-- The condition has no literal, and its value can be written and has the text of null, or with
    the sign for it contains this text. -/
structure ReadsNull (context : Json.Value) (condition : Condition) : Prop where
  missing : condition.literal = none
  reads : ∃ value, Path.resolve? context condition.source = some value ∧ value ≠ .null ∧
    value.isWritable = true ∧
    (condition.sign = Operator.equal.word ∧ value.folded = "null".toList ∨
      condition.sign = Operator.contains.word ∧
        Text.occursIn "null".toList value.folded = true)

theorem holds_eq_true_iff {context : Json.Value} :
    condition.holds context = .ok true ↔
      ∃ value op, Path.resolve? context condition.source = some value ∧ value ≠ .null ∧
        Operator.ofWord? condition.sign = some op ∧
        op.compare value condition.target = .ok true := by
  unfold holds satisfies
  split <;> simp_all

theorem ReadsNull.of_holds {context : Json.Value} (missing : condition.literal = none)
    (held : condition.holds context = .ok true) : condition.ReadsNull context := by
  obtain ⟨value, op, found, present, known, met⟩ := holds_eq_true_iff.mp held
  rw [target, missing, Operator.compare_null_eq_true_iff] at met
  rw [Operator.ofWord?_eq_some_iff] at known
  obtain ⟨writable, met⟩ := met
  refine ⟨missing, value, found, present, writable, ?_⟩
  rcases met with ⟨rfl, same⟩ | ⟨rfl, inside⟩
  · exact .inl ⟨known, same⟩
  · exact .inr ⟨known, inside⟩

theorem ReadsNull.holds {context : Json.Value} (reads : condition.ReadsNull context) :
    condition.holds context = .ok true := by
  obtain ⟨missing, value, found, present, writable, text⟩ := reads
  have met (op : Operator) (sign : condition.sign = op.word)
      (met : op.compare value .null = .ok true) : condition.holds context = .ok true := by
    rw [holds_eq_true_iff, target, missing]
    exact ⟨value, op, found, present, Operator.ofWord?_eq_some_iff.mpr sign, met⟩
  rcases text with ⟨sign, same⟩ | ⟨sign, inside⟩
  · exact met .equal sign (Operator.compare_null_eq_true_iff.mpr ⟨writable, .inl ⟨rfl, same⟩⟩)
  · exact met .contains sign (Operator.compare_null_eq_true_iff.mpr ⟨writable, .inr ⟨rfl, inside⟩⟩)

/-- An incomplete condition holds exactly when it reads null in its value. -/
theorem Incomplete.holds_iff (incomplete : condition.Incomplete) :
    condition.holds (evaluationContext profile event) = .ok true ↔
      condition.ReadsNull (evaluationContext profile event) := by
  constructor
  · intro held
    obtain ⟨value, op, found, -, known, -⟩ := holds_eq_true_iff.mp held
    cases incomplete with
    | source empty =>
        rw [empty, resolve?_empty] at found
        cases found
    | sign unknown =>
        rw [unknown] at known
        cases known
    | literal missing => exact .of_holds missing held
  · exact ReadsNull.holds

theorem turn_ne_some {rule : Rule} (member : condition ∈ rule.conditions)
    (refused : condition.holds (evaluationContext profile event) ≠ .ok true) (firing : Firing) :
    rule.turn event profile ≠ .ok (some firing) := by
  intro fired
  exact refused (allHold_eq_true_iff.mp (Rule.turn_eq_some_iff.mp fired).1 condition member)

theorem exists_turn_eq_some (held : condition.holds (evaluationContext profile event) = .ok true) :
    ∃ rule : Rule, condition ∈ rule.conditions ∧
      ∃ firing, rule.turn event profile = .ok (some firing) := by
  let rule : Rule :=
    { id := "", name := "", status := .active, event := event.kind, conditions := [condition] }
  refine ⟨rule, List.mem_singleton_self condition, ⟨profile, []⟩, ?_⟩
  rw [Rule.turn_eq_some_iff]
  exact ⟨allHold_eq_true_iff.mpr (by simpa [rule] using held), rfl⟩

/-- Unless it reads null in its value or fails, an incomplete condition does not hold; and no
    rule that has it fires, unless it reads null. -/
theorem incomplete_outcome (incomplete : condition.Incomplete) :
    (condition.holds (evaluationContext profile event) = .ok false ↔
      ¬ condition.ReadsNull (evaluationContext profile event) ∧
        ¬ ∃ fault, condition.Fails (evaluationContext profile event) fault) ∧
    ((∀ rule : Rule, condition ∈ rule.conditions →
        ∀ firing, rule.turn event profile ≠ .ok (some firing)) ↔
      ¬ condition.ReadsNull (evaluationContext profile event)) := by
  rw [← incomplete.holds_iff]
  constructor
  · cases answered : condition.holds (evaluationContext profile event) with
    | ok answer =>
        have safe : ¬ ∃ fault, condition.Fails (evaluationContext profile event) fault := by
          rintro ⟨fault, fails⟩
          rw [holds_eq_error_iff.mpr fails] at answered
          cases answered
        cases answer <;> simp [safe]
    | error fault =>
        have fails : ∃ fault, condition.Fails (evaluationContext profile event) fault :=
          ⟨fault, holds_eq_error_iff.mp answered⟩
        simp [fails]
  · constructor
    · intro silent held
      obtain ⟨rule, member, firing, fired⟩ := exists_turn_eq_some held
      exact silent rule member firing fired
    · intro refused rule member
      exact turn_ne_some member refused

/-- The label of a counterparty contains a text that is missing. -/
def labelled : Condition := ⟨"event.counterpartyLabel", "contains", none⟩

theorem labelled_incomplete : labelled.Incomplete := .literal rfl

def payee (label : String) : Event := ⟨.login, [("counterpartyLabel", .string label)]⟩

theorem incomplete_outcome_rent :
    labelled.holds (evaluationContext { customerId := "C1" } (payee "Rent")) = .ok false ∧
      ∀ rule : Rule, labelled ∈ rule.conditions →
        ∀ firing, rule.turn (payee "Rent") { customerId := "C1" } ≠ .ok (some firing) := by
  have outcome :=
    @incomplete_outcome labelled { customerId := "C1" } (payee "Rent") labelled_incomplete
  have clear : ¬ labelled.ReadsNull (evaluationContext { customerId := "C1" } (payee "Rent")) := by
    rw [← labelled_incomplete.holds_iff]
    decide
  exact ⟨by decide, outcome.2.mpr clear⟩

/-- The label of this counterparty begins with the text of null, so the rule fires. -/
theorem labelled_fires :
    labelled.Incomplete ∧
      ∃ rule : Rule, rule.conditions = [labelled] ∧
        rule.turn (payee "Nullarbor Tours") { customerId := "C1" } =
          .ok (some ⟨{ customerId := "C1", tags := ["TRAVEL"] }, ["Added tag \"TRAVEL\""]⟩) := by
  let rule : Rule :=
    { id := "r1", name := "Rule 1", status := .active, event := .login, conditions := [labelled]
      effects := [.addTag (some "TRAVEL")] }
  exact ⟨labelled_incomplete, rule, rfl, rfl⟩

end Condition

end NextOffer
