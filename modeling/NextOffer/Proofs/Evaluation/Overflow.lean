import NextOffer.Proofs.Evaluation.Agenda
import NextOffer.Proofs.Number

/-! # When an evaluation fails

An evaluation fails only on large integers. One that no floating point value is near has to
become one when an order operator compares it, and when a score and its change are added of
which the other is a floating point value. One with too many digits has no text for a text
operator, nor for the description of a change. A failure ends the whole batch, so it is told
along the run that reaches it.
-/

namespace NextOffer

namespace Json.Value

def Oversized : Value → Prop
  | .number x => x.Oversized
  | _ => False

theorem measure_eq_error_iff {value : Value} {fault : ArithmeticFault} :
    value.measure = .error fault ↔ fault = .integerTooLarge ∧ value.Oversized := by
  cases value with
  | number x => exact Number.toBinary64?_eq_error_iff
  | string text =>
      simp only [measure, Oversized, and_false, iff_false]
      split <;> simp
  | null | bool _ | array _ | object _ => simp [measure, Oversized]

end Json.Value

namespace Operator

/-- A text operator looks at a value, a target or an item of a target that cannot be written.
    Items behind one with the text of the value are not looked at. -/
def Unwritable (op : Operator) (value target : Json.Value) : Prop :=
  match op, target with
  | .equal, target | .contains, target => value.isWritable = false ∨ target.isWritable = false
  | .isIn, .array items =>
      value.isWritable = false ∨
        ∃ before item after, items = before ++ item :: after ∧ item.isWritable = false ∧
          ∀ earlier ∈ before, earlier.isWritable = true ∧ earlier.folded ≠ value.folded
  | _, _ => False

/-- A comparison has no answer: an oversized side is to be in an order, or a side that cannot
    be written is to have a text. -/
inductive Fails (op : Operator) (value target : Json.Value) : ArithmeticFault → Prop where
  | order (asked : op.order?.isSome) (oversized : value.Oversized ∨ target.Oversized) :
      Fails op value target .integerTooLarge
  | text (asked : op.order? = none) (unwritable : op.Unwritable value target) :
      Fails op value target .tooManyDigits

theorem anyFolded_eq_error_iff {text : List Char} {items : List Json.Value}
    {fault : ArithmeticFault} :
    Json.Value.anyFolded text items = .error fault ↔
      fault = .tooManyDigits ∧ ∃ before item after, items = before ++ item :: after ∧
        item.isWritable = false ∧
        ∀ earlier ∈ before, earlier.isWritable = true ∧ earlier.folded ≠ text := by
  induction items with
  | nil => simp [Json.Value.anyFolded]
  | cons first rest ih =>
      rw [Json.Value.anyFolded, Outcome.bind_eq_error_iff, Json.Value.foldedText_eq_error_iff]
      constructor
      · rintro (⟨rfl, long⟩ | ⟨found, told, later⟩)
        · exact ⟨rfl, [], first, rest, rfl, long, by simp⟩
        · obtain ⟨writable, rfl⟩ := Json.Value.foldedText_eq_ok_iff.mp told
          split at later
          case isTrue => cases later
          case isFalse other =>
              obtain ⟨rfl, before, item, after, rfl, long, earlier⟩ := ih.mp later
              refine ⟨rfl, first :: before, item, after, rfl, long, ?_⟩
              exact List.forall_mem_cons.mpr ⟨⟨writable, by simpa using other⟩, earlier⟩
      · rintro ⟨rfl, before, item, after, split, long, earlier⟩
        cases before with
        | nil =>
            obtain ⟨rfl, -⟩ := List.cons.inj split
            exact .inl ⟨rfl, long⟩
        | cons front before =>
            obtain ⟨rfl, rfl⟩ := List.cons.inj split
            obtain ⟨⟨writable, other⟩, earlier⟩ := List.forall_mem_cons.mp earlier
            refine .inr ⟨_, Json.Value.foldedText_of_isWritable writable, ?_⟩
            rw [if_neg (by simpa using other)]
            exact ih.mpr ⟨rfl, before, item, after, rfl, long, earlier⟩

private theorem texts_eq_error_iff {α : Type} {first second : Json.Value}
    {next : List Char → List Char → α} {fault : ArithmeticFault} :
    (do return next (← first.foldedText) (← second.foldedText) : Except ArithmeticFault α) =
        .error fault ↔
      fault = .tooManyDigits ∧ (first.isWritable = false ∨ second.isWritable = false) := by
  rw [Json.Value.foldedText, Json.Value.foldedText]
  cases first.isWritable <;> cases second.isWritable <;> simp [eq_comm]

section Comparison

variable {op : Operator} {value target : Json.Value} {fault : ArithmeticFault}

theorem compare_eq_error_iff_of_text (asked : op.order? = none) :
    op.compare value target = .error fault ↔
      fault = .tooManyDigits ∧ op.Unwritable value target := by
  cases op with
  | greater | less | greaterOrEqual | lessOrEqual => cases asked
  | equal => exact texts_eq_error_iff
  | contains => exact texts_eq_error_iff.trans (and_congr_right' or_comm)
  | isIn =>
      cases target with
      | array items =>
          change (value.foldedText >>= fun text => Json.Value.anyFolded text items) = _ ↔ _
          rw [Outcome.bind_eq_error_iff, Json.Value.foldedText_eq_error_iff]
          cases writable : value.isWritable with
          | true =>
              simp [Json.Value.foldedText_of_isWritable writable, anyFolded_eq_error_iff,
                Unwritable, writable]
          | false => simp [Json.Value.foldedText, writable, Unwritable]
      | null | bool | number | string | object => simp [compare, order?, Unwritable]

theorem compare_eq_error_iff_of_order {holds : Binary64 → Binary64 → Bool}
    (asked : op.order? = some holds) :
    op.compare value target = .error fault ↔
      fault = .integerTooLarge ∧ (value.Oversized ∨ target.Oversized) := by
  simp only [compare, asked, Outcome.bind_eq_error_iff, Json.Value.measure_eq_error_iff,
    Outcome.pure_eq, reduceCtorEq, and_false, exists_false, or_false]
  constructor
  · rintro (⟨rfl, left⟩ | ⟨_, _, rfl, right⟩)
    · exact ⟨rfl, .inl left⟩
    · exact ⟨rfl, .inr right⟩
  · rintro ⟨rfl, side⟩
    cases measured : value.measure with
    | error found =>
        obtain ⟨rfl, left⟩ := Json.Value.measure_eq_error_iff.mp measured
        exact .inl ⟨rfl, left⟩
    | ok x =>
        refine .inr ⟨x, rfl, rfl, side.resolve_left fun left => ?_⟩
        rw [Json.Value.measure_eq_error_iff.mpr ⟨rfl, left⟩] at measured
        cases measured

theorem compare_eq_error_iff :
    op.compare value target = .error fault ↔ op.Fails value target fault := by
  cases asked : op.order? with
  | none =>
      rw [compare_eq_error_iff_of_text asked]
      constructor
      · rintro ⟨rfl, unwritable⟩
        exact .text asked unwritable
      · rintro (⟨order, -⟩ | ⟨-, unwritable⟩)
        · simp [asked] at order
        · exact ⟨rfl, unwritable⟩
  | some holds =>
      rw [compare_eq_error_iff_of_order asked]
      constructor
      · rintro ⟨rfl, oversized⟩
        exact .order (by simp [asked]) oversized
      · rintro (⟨-, oversized⟩ | ⟨text, -⟩)
        · exact ⟨rfl, oversized⟩
        · simp [asked] at text

end Comparison

end Operator

namespace Condition

/-- A condition whose value is there and has no comparison with the literal. -/
def Fails (context : Json.Value) (condition : Condition) (fault : ArithmeticFault) : Prop :=
  ∃ value op, Path.resolve? context condition.source = some value ∧ value ≠ .null ∧
    Operator.ofWord? condition.sign = some op ∧ op.Fails value condition.target fault

theorem holds_eq_error_iff {context : Json.Value} {condition : Condition}
    {fault : ArithmeticFault} :
    condition.holds context = .error fault ↔ condition.Fails context fault := by
  cases found : Path.resolve? context condition.source with
  | none => simp [holds, satisfies, Fails, found]
  | some value =>
      cases known : Operator.ofWord? condition.sign with
      | none => cases value <;> simp [holds, satisfies, Fails, found, known]
      | some op =>
          cases value with
          | null => simp [holds, satisfies, Fails, found]
          | bool _ | number _ | string _ | array _ | object _ =>
              simp [holds, satisfies, Fails, found, known, Operator.compare_eq_error_iff]

end Condition

namespace Effect

/-- A change of a score that clashes with its value, or a change, a value before or a value
    after that cannot be written. -/
inductive Fails (profile : Profile) : Effect → ArithmeticFault → Prop where
  | sum {score delta} (named : score ≠ "") (clash : (profile.score score).Clash delta) :
      Fails profile (.scoreDelta (some score) (some delta)) .integerTooLarge
  | description {score delta value} (named : score ≠ "")
      (sum : (profile.score score).add delta = .ok value)
      (unwritable : delta.isWritable = false ∨ (profile.score score).isWritable = false ∨
        value.isWritable = false) :
      Fails profile (.scoreDelta (some score) (some delta)) .tooManyDigits

theorem apply_eq_error_iff {effect : Effect} {profile : Profile} {fault : ArithmeticFault} :
    effect.apply profile = .error fault ↔ effect.Fails profile fault := by
  constructor
  · intro failed
    unfold apply at failed
    split at failed
    case h_1 score delta =>
        split at failed
        case isTrue => cases failed
        case isFalse named =>
            rcases Outcome.bind_eq_error_iff.mp failed with clash | ⟨value, sum, told⟩
            · obtain ⟨rfl, clashes⟩ := Number.add_eq_error_iff.mp clash
              exact .sum named clashes
            · rcases Outcome.bind_eq_error_iff.mp told with told | ⟨_, _, impossible⟩
              · obtain ⟨rfl, unwritable⟩ := changeText_eq_error_iff.mp told
                exact .description named sum unwritable
              · cases impossible
    case h_2 | h_3 => split at failed <;> cases failed
    case h_4 => cases failed
  · intro fails
    cases fails with
    | sum named clash =>
        simp [apply, named, Number.add_eq_error_iff.mpr ⟨rfl, clash⟩]
    | description named sum unwritable =>
        simp [apply, named, sum, changeText_eq_error_iff.mpr ⟨rfl, unwritable⟩]

end Effect

/-- A turn that comes to a condition or an effect which fails. -/
inductive Rule.Fails (rule : Rule) (event : Event) (profile : Profile)
    (fault : ArithmeticFault) : Prop where
  | condition {before condition after}
      (split : rule.conditions = before ++ condition :: after)
      (holding : ∀ earlier ∈ before,
        earlier.holds (evaluationContext profile event) = .ok true)
      (fails : condition.Fails (evaluationContext profile event) fault)
  | effect {before effect after current texts}
      (holding : ∀ condition ∈ rule.conditions,
        condition.holds (evaluationContext profile event) = .ok true)
      (split : rule.effects = before ++ effect :: after)
      (reached : Effect.applyAll profile before = .ok (current, texts))
      (fails : effect.Fails current fault)

theorem Rule.turn_eq_error_iff_fails {rule : Rule} {event : Event} {profile : Profile}
    {fault : ArithmeticFault} :
    rule.turn event profile = .error fault ↔ rule.Fails event profile fault := by
  rw [turn_eq_error_iff, Condition.allHold_eq_iff_first (by simp), Condition.allHold_eq_true_iff,
    Effect.applyAll_eq_error_iff]
  simp only [Condition.holds_eq_error_iff, Effect.apply_eq_error_iff]
  constructor
  · rintro (⟨before, condition, after, split, holding, fails⟩ |
      ⟨holding, before, effect, after, current, texts, split, reached, fails⟩)
    · exact .condition split holding fails
    · exact .effect holding split reached fails
  · rintro (⟨split, holding, fails⟩ | ⟨holding, split, reached, fails⟩)
    · exact .inl ⟨_, _, _, split, holding, fails⟩
    · exact .inr ⟨holding, _, _, _, _, _, split, reached, fails⟩

/-- A run reaches a turn which fails. -/
def Evaluation.Fails (rules : List Rule) (profile : Profile) (events : List Event)
    (fault : ArithmeticFault) : Prop :=
  ∃ before event rule after current trace,
    Agenda.ofEvents (Rule.sortActive rules) events = before ++ (event, rule) :: after ∧
    Agenda.Runs profile before current trace ∧ rule.Fails event current fault

theorem evaluate_eq_error_iff_fails {rules : List Rule} {profile : Profile}
    {events : List Event} {now : Timestamp} {fault : ArithmeticFault} :
    evaluate rules profile events now = .error fault ↔
      Evaluation.Fails rules profile events fault := by
  rw [evaluate_eq_error_iff, Agenda.run_eq_error_iff]
  simp only [Rule.turn_eq_error_iff_fails, Evaluation.Fails]

/-- An evaluation returns unless it comes to a turn which fails: on an integer too large for an
    order or a sum of floating point values, or too long for a text. -/
theorem evaluate_returns_iff (rules : List Rule) (profile : Profile) (events : List Event)
    (now : Timestamp) :
    (∃ result, evaluate rules profile events now = .ok result) ↔
      ¬ ∃ fault, Evaluation.Fails rules profile events fault := by
  constructor
  · rintro ⟨result, returned⟩ ⟨fault, fails⟩
    rw [evaluate_eq_error_iff_fails.mpr fails] at returned
    cases returned
  · intro safe
    cases outcome : evaluate rules profile events now with
    | ok result => exact ⟨result, rfl⟩
    | error fault => exact absurd ⟨fault, evaluate_eq_error_iff_fails.mp outcome⟩ safe

namespace Rule

def payment : Rule :=
  { id := "r1", name := "Rule 1", status := .active, event := .login
    conditions := [⟨"event.amount", ">", some (.scalar (.number 1))⟩] }

def paid (amount : Int) : Event := ⟨.login, [("amount", .number (.int amount))]⟩

theorem payment_fails {amount : Int} (oversized : Binary64.Oversized amount) :
    Evaluation.Fails [payment] { customerId := "C1" } [paid amount] .integerTooLarge := by
  have found : Path.resolve? (evaluationContext { customerId := "C1" } (paid amount))
      "event.amount" = some (.number (.int amount)) := rfl
  have known : Operator.ofWord? ">" = some .greater := by decide
  have turns : Agenda.ofEvents (sortActive [payment]) [paid amount] = [(paid amount, payment)] := by
    simp [Agenda.ofEvents, Agenda.ofEvent, matching, sortActive, payment, paid, isActive]
  refine ⟨[], paid amount, payment, [], { customerId := "C1" }, [], turns, .done _, ?_⟩
  refine .condition (List.nil_append _).symm (by simp) ?_
  exact ⟨_, _, found, by simp, known, .order rfl (.inl oversized)⟩

/-- A payment of `10^400` has no evaluation. -/
theorem evaluate_payment_fails :
    ¬ ∃ result, evaluate [payment] { customerId := "C1" } [paid (Nat.pow 10 400)]
      (.midnight ⟨2026, 2, 5, by decide⟩ none) = .ok result := by
  have oversized : Binary64.Oversized (Nat.pow 10 400) := by
    rw [Binary64.Oversized]
    decide +kernel
  rintro ⟨result, returned⟩
  rw [evaluate_eq_error_iff_fails.mpr (payment_fails oversized)] at returned
  cases returned

end Rule

end NextOffer
