import NextOffer.Proofs.Condition.Incomplete
import NextOffer.Proofs.Evaluation.TurnOrder
import NextOffer.Proofs.Number.Line

/-! # Malformed rules are inert

Some conditions cannot hold whatever the profile and the event are, and some effects change
nothing and say nothing. A rule with such a condition never fires, so where an evaluation
returns, every turn of the rule is idle. Without these turns and effects the same turns come in
the same order and do the same.
-/

namespace NextOffer

/-! ## Effects that change nothing -/

namespace Effect

/-- The effect has the fields that its kind needs. -/
def isComplete : Effect → Bool
  | scoreDelta (some score) (some _) => score != ""
  | addTag (some tag) => tag != ""
  | removeTag (some tag) => tag != ""
  | _ => false

theorem apply_of_incomplete {effect : Effect} (incomplete : effect.isComplete = false)
    (profile : Profile) : effect.apply profile = .ok ⟨profile, ""⟩ := by
  cases effect with
  | scoreDelta score delta =>
      cases score <;> cases delta <;> simp_all [isComplete, apply]
  | addTag tag => cases tag <;> simp_all [isComplete, apply]
  | removeTag tag => cases tag <;> simp_all [isComplete, apply]

theorem applyAll_complete (profile : Profile) (effects : List Effect) :
    applyAll profile (effects.filter isComplete) = applyAll profile effects := by
  induction effects generalizing profile with
  | nil => rfl
  | cons effect rest ih =>
      cases complete : effect.isComplete with
      | true =>
          rw [List.filter_cons_of_pos complete]
          simp only [applyAll, ih]
      | false =>
          rw [List.filter_cons_of_neg (by simp [complete]), ih]
          simp only [applyAll, apply_of_incomplete complete, Outcome.ok_bind]
          cases applyAll profile rest <;> simp

end Effect

/-! ## Conditions that never hold -/

namespace Json.Value

/-- The value does not count as a number: null, a list, an object, a NaN, and a text that is
    not blank and cannot be read as a number, or only as a NaN. -/
def isNoNumber : Value → Bool
  | .bool _ => false
  | .number x => x.place?.isNone
  | .string text =>
      !(Text.trim Text.isBlank text.toList).isEmpty &&
        (Text.toBinary64? text.toList).all Binary64.isNaN
  | _ => true

theorem measure_of_isNoNumber {value : Value} (noNumber : value.isNoNumber = true) :
    value.measure = .ok .nan := by
  cases value with
  | null | array _ | object _ => rfl
  | bool _ => cases noNumber
  | number x =>
      have nowhere := Option.isNone_iff_eq_none.mp noNumber
      cases x with
      | int n => cases nowhere
      | real x => rw [measure, Number.toBinary64?, Number.place?_real_eq_none_iff.mp nowhere]
  | string text =>
      rw [isNoNumber, Bool.and_eq_true, Bool.not_eq_true', List.isEmpty_eq_false_iff] at noNumber
      obtain ⟨nonblank, unread⟩ := noNumber
      rw [measure, if_neg nonblank]
      cases read : Text.toBinary64? text.toList with
      | none => rfl
      | some x =>
          rw [read] at unread
          cases x with
          | nan => rfl
          | infinity _ => cases unread
          | finite => cases unread

end Json.Value

namespace Condition

/-- A condition without a source, with an unknown sign, that looks for a value in what is no
    list, or that asks for the order of what is no number. -/
def isHopeless (condition : Condition) : Bool :=
  condition.source == "" ||
    match Operator.ofWord? condition.sign, condition.target with
    | none, _ => true
    | some .isIn, .array _ => false
    | some .isIn, _ => true
    | some op, target => op.order?.isSome && target.isNoNumber

theorem not_holds_of_isHopeless {condition : Condition} (hopeless : condition.isHopeless = true)
    (profile : Profile) (event : Event) :
    condition.holds (evaluationContext profile event) ≠ .ok true := by
  intro held
  obtain ⟨value, op, found, -, known, met⟩ := holds_eq_true_iff.mp held
  rw [isHopeless, known, Bool.or_eq_true] at hopeless
  rcases hopeless with empty | useless
  · rw [of_decide_eq_true empty, resolve?_empty] at found
    cases found
  · cases op with
    | isIn =>
        cases shape : condition.target with
        | array items => simp [shape] at useless
        | null | bool _ | number _ | string _ | object _ =>
            rw [shape] at met
            cases met
    | greater | less | greaterOrEqual | lessOrEqual =>
        have noNumber := Json.Value.measure_of_isNoNumber useless
        exact Operator.compare_nan rfl noNumber met
    | equal | contains => cases useless

end Condition

namespace Rule

/-- The rule has a condition that never holds. -/
def isHopeless (rule : Rule) : Bool := rule.conditions.any Condition.isHopeless

/-- The rule without its incomplete effects. -/
def trimmed (rule : Rule) : Rule := { rule with effects := rule.effects.filter Effect.isComplete }

/-- The rules that may fire, without their incomplete effects. -/
def cleaned (rules : List Rule) : List Rule :=
  (rules.filter fun rule => !rule.isHopeless).map trimmed

theorem turn_trimmed (rule : Rule) (event : Event) (profile : Profile) :
    rule.trimmed.turn event profile = rule.turn event profile := by
  simp only [turn, trimmed, Effect.applyAll_complete]

theorem turn_ne_some_of_isHopeless {rule : Rule} (hopeless : rule.isHopeless = true)
    (event : Event) (profile : Profile) (firing : Firing) :
    rule.turn event profile ≠ .ok (some firing) := by
  obtain ⟨condition, member, hopeless⟩ := List.any_eq_true.mp hopeless
  exact Condition.turn_ne_some member (condition.not_holds_of_isHopeless hopeless profile event)
    firing

theorem filter_cleaned {choose : Rule → Bool} (blind : ∀ rule, choose rule.trimmed = choose rule)
    (rules : List Rule) : (cleaned rules).filter choose = cleaned (rules.filter choose) := by
  have same : choose ∘ trimmed = choose := funext blind
  rw [cleaned, cleaned, List.filter_map, same, List.filter_filter, List.filter_filter]
  simp only [Bool.and_comm]

theorem matching_cleaned (rules : List Rule) (kind : EventKind) :
    matching (cleaned rules) kind = cleaned (matching rules kind) :=
  filter_cleaned (fun _ => rfl) rules

theorem sortActive_cleaned (rules : List Rule) :
    sortActive (cleaned rules) = cleaned (sortActive rules) := by
  have sorted := @Stability.mergeSort_filter _ _ _ priority
    (fun a b => decide (b ≤ a)) (by simp; omega) (by simp; omega) (by simp; omega)
    (fun rule => !rule.isHopeless) (rules.filter isActive)
  have trimmed_last := @List.map_mergeSort _ _ (fun a b : Rule => decide (b.priority ≤ a.priority))
    (fun a b : Rule => decide (b.priority ≤ a.priority)) trimmed
    ((rules.filter isActive).filter fun rule => !rule.isHopeless) (fun _ _ _ _ => rfl)
  rw [sortActive, filter_cleaned (fun _ => rfl), cleaned, ← trimmed_last, sorted]
  rfl

end Rule

namespace Agenda

/-- The turns of rules that may fire, without incomplete effects. -/
def cleaned (agenda : Agenda) : Agenda :=
  (agenda.filter fun turn => !turn.2.isHopeless).map fun turn => (turn.1, turn.2.trimmed)

theorem cleaned_cons (event : Event) (rule : Rule) (rest : Agenda) :
    cleaned ((event, rule) :: rest) =
      if rule.isHopeless then cleaned rest else (event, rule.trimmed) :: cleaned rest := by
  cases hopeless : rule.isHopeless <;> simp [cleaned, hopeless]

theorem ofEvents_cleaned (rules : List Rule) (events : List Event) :
    ofEvents (Rule.cleaned rules) events = cleaned (ofEvents rules events) := by
  have one (event : Event) : ofEvent event (Rule.matching (Rule.cleaned rules) event.kind) =
      cleaned (ofEvent event (Rule.matching rules event.kind)) := by
    rw [Rule.matching_cleaned, Rule.cleaned, ofEvent, ofEvent, cleaned, List.filter_map,
      List.map_map, List.map_map]
    rfl
  induction events with
  | nil => rfl
  | cons event rest ih =>
      simp only [ofEvents, List.flatMap_cons] at ih ⊢
      rw [one, ih, cleaned, cleaned, cleaned, List.filter_append, List.map_append]

/-- Turns that are left out were idle, and the others do the same. -/
theorem Runs.cleaned {profile final : Profile} {agenda : Agenda} {trace : List TraceEntry}
    (run : Runs profile agenda final trace) : Runs profile agenda.cleaned final trace := by
  induction run with
  | done profile => exact .done profile
  | @idle profile event rule rest final trace taken later ih =>
      rw [cleaned_cons]
      split
      case isTrue => exact ih
      case isFalse => exact .idle ((rule.turn_trimmed event profile).trans taken) ih
  | @fired profile event rule firing rest final trace taken later ih =>
      have hopeful : ¬ rule.isHopeless = true := fun hopeless =>
        rule.turn_ne_some_of_isHopeless hopeless event profile firing taken
      rw [cleaned_cons, if_neg hopeful]
      exact .fired ((rule.turn_trimmed event profile).trans taken) ih

end Agenda

/-- Where an evaluation returns, it returns the same without the rules that never fire and the
    effects that change nothing. -/
theorem evaluate_cleaned {rules : List Rule} {profile : Profile} {events : List Event}
    {now : Timestamp} {result : Evaluation}
    (returned : evaluate rules profile events now = .ok result) :
    evaluate (Rule.cleaned rules) profile events now = .ok result := by
  obtain ⟨final, run, stamped⟩ := evaluate_eq_ok_iff.mp returned
  rw [evaluate_eq_ok_iff, Rule.sortActive_cleaned, Agenda.ofEvents_cleaned]
  exact ⟨final, run.cleaned, stamped⟩

namespace Rule

/-- Fires at every login. -/
def greet (effects : List Effect) : Rule :=
  { id := "r1", name := "Rule 1", status := .active, event := .login, effects }

/-- The amount is compared with a text that is no number. -/
def wealthy : Rule :=
  { id := "r2", name := "Rule 2", status := .active, event := .login
    conditions := [⟨"event.amount", ">", some (.scalar (.text "lots"))⟩]
    effects := [.addTag (some "rich")] }

theorem cleaned_greet : cleaned [wealthy, greet [.addTag none]] = [greet []] := by
  have hopeless : wealthy.isHopeless = true := by decide +kernel
  have hopeful : (greet [.addTag none]).isHopeless = false := rfl
  simp only [cleaned, List.filter_cons, hopeless, hopeful]
  rfl

def sale : Event := ⟨.login, [("amount", .int 7)]⟩

/-- The rule that waits for the other amount is left out, and the greeting keeps its entry. -/
theorem evaluate_cleaned_greet :
    ∃ now : Timestamp, ∃ result,
      evaluate [wealthy, greet [.addTag none]] { customerId := "C1" } [sale] now = .ok result ∧
      result.trace = [⟨"r1", "Rule 1", ""⟩] ∧
      evaluate [greet []] { customerId := "C1" } [sale] now = .ok result := by
  have idle : wealthy.turn sale { customerId := "C1" } = .ok none := by
    rw [turn_eq_none_iff]
    decide +kernel
  have fired : (greet [.addTag none]).turn sale { customerId := "C1" } =
      .ok (some ⟨{ customerId := "C1" }, []⟩) := rfl
  have sorted : sortActive [wealthy, greet [.addTag none]] = [wealthy, greet [.addTag none]] := by
    simp [sortActive, greet, wealthy, isActive, List.mergeSort,
      List.MergeSort.Internal.splitInTwo]
  have returned : evaluate [wealthy, greet [.addTag none]] { customerId := "C1" }
      [sale] (.midnight ⟨2026, 2, 5, by decide⟩ none) =
      .ok ⟨{ customerId := "C1", lastUpdated := some (.midnight ⟨2026, 2, 5, by decide⟩ none) },
        [⟨"r1", "Rule 1", ""⟩]⟩ := by
    refine evaluate_eq_ok_iff.mpr ⟨{ customerId := "C1" }, ?_, rfl⟩
    rw [sorted]
    exact .idle idle (.fired fired (.done _))
  have same := evaluate_cleaned returned
  rw [cleaned_greet] at same
  exact ⟨_, _, returned, rfl, same⟩

end Rule

end NextOffer
