import NextOffer.Proofs.Evaluation.Agenda
import NextOffer.Proofs.Stability

/-! # The order of turns

Which rules have a turn for an event, and in which order, follows from two things: the
active rules of its kind, and the order of those among them that have one priority.
Everything else about a rule set is without effect on an evaluation.
-/

namespace NextOffer

namespace Rule

/-- The active rules for a kind of event, in the order of the rule set. -/
def eligible (rules : List Rule) (kind : EventKind) : List Rule :=
  rules.filter fun rule => rule.isActive && rule.event == kind

/-- The eligible rules by falling priority, those of one priority in the order of the rule
    set. -/
structure TurnOrder (rules : List Rule) (kind : EventKind) (turns : List Rule) : Prop where
  complete : turns.Perm (eligible rules kind)
  falling : turns.Pairwise fun earlier later => later.priority ≤ earlier.priority
  stable : ∀ priority : Int, turns.filter (fun rule => rule.priority = priority) =
    (eligible rules kind).filter fun rule => rule.priority = priority

private theorem falling_trans (a b c : Rule) :
    decide (b.priority ≤ a.priority) → decide (c.priority ≤ b.priority) →
      decide (c.priority ≤ a.priority) := by
  simp only [decide_eq_true_eq]
  omega

private theorem falling_total (a b : Rule) :
    decide (b.priority ≤ a.priority) || decide (a.priority ≤ b.priority) := by
  simp only [Bool.or_eq_true, decide_eq_true_eq]
  omega

/-- Sorting first and choosing the kind afterwards gives the order of turns. -/
theorem turnOrder_matching (rules : List Rule) (kind : EventKind) :
    TurnOrder rules kind (matching (sortActive rules) kind) where
  complete := by
    have sorted := (List.mergeSort_perm (rules.filter isActive)
      fun a b => decide (b.priority ≤ a.priority)).filter fun rule => rule.event == kind
    simpa only [matching, sortActive, eligible, List.filter_filter, Bool.and_comm] using sorted
  falling := by
    have sorted := List.pairwise_mergeSort falling_trans falling_total (rules.filter isActive)
    simp only [decide_eq_true_eq] at sorted
    exact sorted.filter _
  stable priority := by
    have kept := Stability.filter_mergeSort falling_trans falling_total
      (fun rule => decide (rule.priority = priority) && rule.event == kind)
      (by simp only [Bool.and_eq_true, decide_eq_true_eq]; omega) (rules.filter isActive)
    simpa only [matching, sortActive, eligible, List.filter_filter, Bool.and_comm,
      Bool.and_left_comm, Bool.and_assoc] using kept

/-- What an evaluation reads of a rule that is eligible. -/
structure Content where
  id : String
  name : String
  conditions : List Condition
  effects : List Effect
  deriving DecidableEq

def content (rule : Rule) : Content := ⟨rule.id, rule.name, rule.conditions, rule.effects⟩

/-- Rule sets whose eligible rules of each priority read the same have orders of turns that
    read the same. -/
theorem TurnOrder.map_content_eq {first second : List Rule} {kind : EventKind}
    {turns turns' : List Rule} (order : TurnOrder first kind turns)
    (order' : TurnOrder second kind turns')
    (same : ∀ priority : Int,
      ((eligible first kind).filter fun rule => rule.priority = priority).map content =
        ((eligible second kind).filter fun rule => rule.priority = priority).map content) :
    turns.map content = turns'.map content := by
  apply Stability.map_eq_of_filter_eq Rule.priority (r := fun a b => b ≤ a)
    (fun below above => Int.le_antisymm above below) content order.falling order'.falling
  intro priority
  rw [order.stable, order'.stable]
  exact same priority

theorem turn_eq_of_content {rule other : Rule} (same : rule.content = other.content)
    (event : Event) (profile : Profile) : rule.turn event profile = other.turn event profile := by
  have conditions : rule.conditions = other.conditions := congrArg Content.conditions same
  have effects : rule.effects = other.effects := congrArg Content.effects same
  simp only [turn, conditions, effects]

theorem entry_eq_of_content {rule other : Rule} (same : rule.content = other.content)
    (firing : Firing) : rule.entry firing = other.entry firing := by
  have ids : rule.id = other.id := congrArg Content.id same
  have names : rule.name = other.name := congrArg Content.name same
  simp only [entry, ids, names]

theorem runTurns_eq_of_content {rules others : List Rule}
    (same : rules.map content = others.map content) (event : Event) (profile : Profile) :
    runTurns event profile rules = runTurns event profile others := by
  induction rules generalizing others profile with
  | nil =>
      have empty : others = [] := by simpa using same.symm
      rw [empty]
  | cons rule rest ih =>
      cases others with
      | nil => simp at same
      | cons other rest' =>
          obtain ⟨heads, tails⟩ := List.cons.inj same
          simp only [runTurns, turn_eq_of_content heads, entry_eq_of_content heads, ih tails]

end Rule

/-- Only the order of eligible rules within one kind and one priority matters: rule sets that
    agree there, for the kinds of the batch, have the same evaluation, faults included. -/
theorem evaluate_eq_of_eligible (first second : List Rule) (profile : Profile)
    (events : List Event) (now : Timestamp)
    (same : ∀ event ∈ events, ∀ priority : Int,
      ((Rule.eligible first event.kind).filter fun rule => rule.priority = priority).map
          Rule.content =
        ((Rule.eligible second event.kind).filter fun rule => rule.priority = priority).map
          Rule.content) :
    evaluate first profile events now = evaluate second profile events now := by
  have runs : ∀ start, Rule.runEvents (Rule.sortActive first) start events =
      Rule.runEvents (Rule.sortActive second) start events := by
    clear profile
    induction events with
    | nil => intro start; rfl
    | cons event rest ih =>
        intro start
        have turns : (Rule.matching (Rule.sortActive first) event.kind).map Rule.content =
            (Rule.matching (Rule.sortActive second) event.kind).map Rule.content :=
          (Rule.turnOrder_matching first event.kind).map_content_eq
            (Rule.turnOrder_matching second event.kind) (same event (by simp))
        have later := ih fun other member => same other (List.mem_cons_of_mem _ member)
        simp only [Rule.runEvents, Rule.runTurns_eq_of_content turns, later]
  simp only [evaluate, runs]

namespace Rule

def greeting : Rule :=
  { id := "greet", name := "Greet", status := .active, priority := 90, event := .login
    effects := [.addTag (some "greeted")] }

def visit : Rule :=
  { id := "visit", name := "Visit", status := .active, event := .login
    effects := [.scoreDelta (some "visits") (some 1)] }

/-- The greeting comes first or second, the visit has another version, and rules that are a
    draft or of another kind come and go. -/
theorem evaluate_eq_of_eligible_swapped :
    (∀ event ∈ [(⟨.login, []⟩ : Event)], ∀ priority : Int,
      ((eligible [visit, { greeting with status := .draft }, greeting] event.kind).filter
          fun rule => rule.priority = priority).map content =
        ((eligible [greeting, { visit with event := .salaryCredit }, { visit with version := 2 }]
          event.kind).filter fun rule => rule.priority = priority).map content) ∧
    evaluate [visit, { greeting with status := .draft }, greeting]
        { customerId := "C1" } [⟨.login, []⟩] (.midnight ⟨2026, 2, 5, by decide⟩ none) =
      evaluate [greeting, { visit with event := .salaryCredit }, { visit with version := 2 }]
        { customerId := "C1" } [⟨.login, []⟩] (.midnight ⟨2026, 2, 5, by decide⟩ none) := by
  refine ⟨?agree, evaluate_eq_of_eligible _ _ _ _ _ ?agree⟩
  intro event member priority
  rw [List.mem_singleton.mp member]
  have left : eligible [visit, { greeting with status := .draft }, greeting] .login =
      [visit, greeting] := rfl
  have right : eligible [greeting, { visit with event := .salaryCredit },
      { visit with version := 2 }] .login = [greeting, { visit with version := 2 }] := rfl
  rw [left, right]
  by_cases high : greeting.priority = priority
  · have low : visit.priority ≠ priority := by rw [← high]; decide
    simp [high, low]
  · by_cases low : visit.priority = priority <;> simp [high, low, content]

end Rule

end NextOffer
