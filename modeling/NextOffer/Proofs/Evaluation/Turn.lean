import NextOffer.Evaluation.Basic
import NextOffer.Proofs.Outcome

/-! # One turn of a rule

A rule that has its turn looks at its conditions one after another and stops at the first
that does not hold. When all hold it applies its effects one after another and stops at
the first without a result. The statements here say where each of the two stops, and what
a turn comes to.
-/

namespace NextOffer

theorem satisfies_some {value : Json.Value} (present : value ≠ .null) (sign : String)
    (target : Json.Value) :
    satisfies (some value) sign target =
      match Operator.ofWord? sign with
      | none => .ok false
      | some op => op.compare value target := by
  unfold satisfies
  cases Operator.ofWord? sign <;> cases value <;> first | rfl | exact (present rfl).elim

namespace Condition

variable {context : Json.Value} {conditions : List Condition}

theorem allHold_eq_true_iff :
    allHold context conditions = .ok true ↔
      ∀ condition ∈ conditions, condition.holds context = .ok true := by
  induction conditions with
  | nil => simp [allHold]
  | cons condition rest ih =>
      cases held : condition.holds context with
      | error fault => simp [allHold, held]
      | ok answer => cases answer <;> simp [allHold, held, ih]

private theorem allHold_cons_of_holds {condition : Condition}
    (held : condition.holds context = .ok true) (rest : List Condition) :
    allHold context (condition :: rest) = allHold context rest := by
  simp [allHold, held]

private theorem allHold_cons_of_not_holds {condition : Condition}
    (stopped : condition.holds context ≠ .ok true) (rest : List Condition) :
    allHold context (condition :: rest) = condition.holds context := by
  cases held : condition.holds context with
  | error fault => simp [allHold, held]
  | ok answer =>
      cases answer with
      | true => exact absurd held stopped
      | false => simp [allHold, held]

/-- Every other outcome is that of the first condition that does not hold. -/
theorem allHold_eq_iff_first {outcome : Except ArithmeticFault Bool} (other : outcome ≠ .ok true) :
    allHold context conditions = outcome ↔
      ∃ before condition after, conditions = before ++ condition :: after ∧
        (∀ earlier ∈ before, earlier.holds context = .ok true) ∧
        condition.holds context = outcome := by
  constructor
  · intro stopped
    induction conditions with
    | nil => exact absurd stopped.symm other
    | cons condition rest ih =>
        by_cases held : condition.holds context = .ok true
        · rw [allHold_cons_of_holds held] at stopped
          obtain ⟨before, first, after, rfl, holding, found⟩ := ih stopped
          refine ⟨condition :: before, first, after, rfl, ?_, found⟩
          intro earlier member
          rcases List.mem_cons.mp member with rfl | member
          · exact held
          · exact holding earlier member
        · rw [allHold_cons_of_not_holds held] at stopped
          exact ⟨[], condition, rest, rfl, by simp, stopped⟩
  · rintro ⟨before, condition, after, rfl, holding, found⟩
    induction before with
    | nil => rw [List.nil_append, allHold_cons_of_not_holds (found ▸ other), found]
    | cons earlier before ih =>
        rw [List.cons_append, allHold_cons_of_holds (holding earlier (by simp))]
        exact ih (fun c member => holding c (List.mem_cons_of_mem _ member))

theorem allHold_false_iff_exists {answer : Bool}
    (answered : allHold context conditions = .ok answer) :
    answer = false ↔ ∃ condition ∈ conditions, condition.holds context = .ok false := by
  cases answer with
  | true =>
      have all := allHold_eq_true_iff.mp answered
      refine ⟨nofun, ?_⟩
      rintro ⟨condition, member, failed⟩
      rw [all condition member] at failed
      cases failed
  | false =>
      obtain ⟨before, condition, after, rfl, -, failed⟩ :=
        (allHold_eq_iff_first (by simp)).mp answered
      exact ⟨fun _ => ⟨condition, by simp, failed⟩, fun _ => rfl⟩

end Condition

namespace Effect

theorem applyAll_append (profile : Profile) (front rest : List Effect) :
    applyAll profile (front ++ rest) = do
      let (middle, texts) ← applyAll profile front
      let (final, later) ← applyAll middle rest
      return (final, texts ++ later) := by
  induction front generalizing profile with
  | nil => cases done : applyAll profile rest <;> simp [applyAll, done]
  | cons effect front ih =>
      cases applied : effect.apply profile with
      | error fault => simp [applyAll, applied]
      | ok change =>
          cases reached : applyAll change.profile front with
          | error fault => simp [applyAll, applied, reached, ih]
          | ok middle =>
              cases done : applyAll middle.1 rest with
              | error fault => simp [applyAll, applied, reached, done, ih]
              | ok final =>
                  by_cases silent : change.description = "" <;>
                    simp [applyAll, applied, reached, done, ih, silent]

/-- Effects fail at the first one without a result on what the earlier ones leave. -/
theorem applyAll_eq_error_iff {profile : Profile} {effects : List Effect}
    {fault : ArithmeticFault} :
    applyAll profile effects = .error fault ↔
      ∃ before effect after current texts, effects = before ++ effect :: after ∧
        applyAll profile before = .ok (current, texts) ∧
        effect.apply current = .error fault := by
  constructor
  · intro failed
    induction effects generalizing profile with
    | nil => cases failed
    | cons effect rest ih =>
        rcases Outcome.bind_eq_error_iff.mp failed with first | ⟨change, applied, later⟩
        · exact ⟨[], effect, rest, profile, [], rfl, rfl, first⟩
        · rcases Outcome.bind_eq_error_iff.mp later with later | ⟨_, _, impossible⟩
          · obtain ⟨before, culprit, after, current, texts, rfl, reached, found⟩ := ih later
            let front := if change.description = "" then texts else change.description :: texts
            exact ⟨effect :: before, culprit, after, current, front, rfl,
              by simp [applyAll, applied, reached, front], found⟩
          · cases impossible
  · rintro ⟨before, effect, after, current, texts, rfl, reached, found⟩
    simp [applyAll_append, reached, applyAll, found]

end Effect

namespace Rule

variable {rule : Rule} {event : Event} {profile : Profile}

theorem turn_eq_none_iff :
    rule.turn event profile = .ok none ↔
      Condition.allHold (evaluationContext profile event) rule.conditions = .ok false := by
  cases met : Condition.allHold (evaluationContext profile event) rule.conditions with
  | error fault => simp [turn, met]
  | ok answer =>
      cases answer with
      | false => simp [turn, met]
      | true => cases done : Effect.applyAll profile rule.effects <;> simp [turn, met, done]

theorem turn_eq_some_iff {firing : Firing} :
    rule.turn event profile = .ok (some firing) ↔
      Condition.allHold (evaluationContext profile event) rule.conditions = .ok true ∧
      Effect.applyAll profile rule.effects = .ok (firing.profile, firing.descriptions) := by
  cases met : Condition.allHold (evaluationContext profile event) rule.conditions with
  | error fault => simp [turn, met]
  | ok answer =>
      cases answer with
      | false => simp [turn, met]
      | true =>
          cases done : Effect.applyAll profile rule.effects with
          | error fault => simp [turn, met, done]
          | ok final => cases firing; simp [turn, met, done, Prod.ext_iff]

theorem turn_eq_error_iff {fault : ArithmeticFault} :
    rule.turn event profile = .error fault ↔
      Condition.allHold (evaluationContext profile event) rule.conditions = .error fault ∨
      Condition.allHold (evaluationContext profile event) rule.conditions = .ok true ∧
        Effect.applyAll profile rule.effects = .error fault := by
  cases met : Condition.allHold (evaluationContext profile event) rule.conditions with
  | error fault => simp [turn, met]
  | ok answer =>
      cases answer with
      | false => simp [turn, met]
      | true => cases done : Effect.applyAll profile rule.effects <;> simp [turn, met, done]

end Rule

end NextOffer
