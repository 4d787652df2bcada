import NextOffer.Proofs.Evaluation.Agenda

/-! # Evaluating a batch in two parts

An evaluation ends with a stamp on the profile. No condition and no effect looks at the
stamp, so a second evaluation that starts from a stamped profile continues the first one
as if both were one batch, faults included.
-/

namespace NextOffer

namespace Profile

/-- The profile with another time of its last evaluation. -/
def stamped (profile : Profile) (time : Option Timestamp) : Profile :=
  { profile with lastUpdated := time }

@[simp] theorem stamped_score (profile : Profile) (time : Option Timestamp) (name : String) :
    (profile.stamped time).score name = profile.score name := rfl

@[simp] theorem stamped_hasTag (profile : Profile) (time : Option Timestamp) (tag : String) :
    (profile.stamped time).hasTag tag = profile.hasTag tag := rfl

end Profile

@[simp] theorem evaluationContext_stamped (profile : Profile) (time : Option Timestamp)
    (event : Event) :
    evaluationContext (profile.stamped time) event = evaluationContext profile event := rfl

namespace Effect

theorem apply_stamped (profile : Profile) (time : Option Timestamp) (effect : Effect) :
    effect.apply (profile.stamped time) =
      (effect.apply profile).map fun applied =>
        { applied with profile := applied.profile.stamped time } := by
  cases effect with
  | scoreDelta score delta =>
      cases score with
      | none => rfl
      | some score =>
          cases delta with
          | none => rfl
          | some delta =>
              simp only [apply, Profile.stamped_score]
              split
              case isTrue => rfl
              case isFalse =>
                  cases (profile.score score).add delta with
                  | error fault => rfl
                  | ok value =>
                      simp only [Outcome.ok_bind]
                      cases changeText score delta (profile.score score) value <;> rfl
  | addTag tag =>
      cases tag with
      | none => rfl
      | some tag =>
          by_cases idle : tag = "" ∨ profile.hasTag tag <;>
            simp only [apply, Profile.stamped_hasTag, idle, if_true, if_false] <;> rfl
  | removeTag tag =>
      cases tag with
      | none => rfl
      | some tag =>
          by_cases idle : tag = "" ∨ !profile.hasTag tag <;>
            simp only [apply, Profile.stamped_hasTag, idle, if_true, if_false] <;> rfl

theorem applyAll_stamped (profile : Profile) (time : Option Timestamp) (effects : List Effect) :
    applyAll (profile.stamped time) effects =
      (applyAll profile effects).map fun done => (done.1.stamped time, done.2) := by
  induction effects generalizing profile with
  | nil => rfl
  | cons effect rest ih =>
      simp only [applyAll, apply_stamped]
      cases effect.apply profile with
      | error fault => rfl
      | ok applied =>
          simp only [Except.map, Outcome.ok_bind, ih]
          cases applyAll applied.profile rest <;> rfl

end Effect

namespace Rule

theorem turn_stamped (rule : Rule) (event : Event) (profile : Profile) (time : Option Timestamp) :
    rule.turn event (profile.stamped time) =
      (rule.turn event profile).map
        (Option.map fun firing => { firing with profile := firing.profile.stamped time }) := by
  simp only [turn, evaluationContext_stamped, Effect.applyAll_stamped]
  cases Condition.allHold (evaluationContext profile event) rule.conditions with
  | error fault => rfl
  | ok answer =>
      cases answer with
      | false => rfl
      | true => cases Effect.applyAll profile rule.effects <;> rfl

end Rule

namespace Agenda

/-- A run carries a stamp along and does nothing else with it. -/
theorem run_stamped (profile : Profile) (time : Option Timestamp) (agenda : Agenda) :
    run (profile.stamped time) agenda =
      (run profile agenda).map fun reached => (reached.1.stamped time, reached.2) := by
  induction agenda generalizing profile with
  | nil => rfl
  | cons item rest ih =>
      obtain ⟨event, rule⟩ := item
      simp only [run, Rule.turn_stamped]
      cases rule.turn event profile with
      | error fault => rfl
      | ok outcome =>
          cases outcome with
          | none => exact ih profile
          | some firing =>
              simp only [Except.map, Option.map, Outcome.ok_bind, ih]
              cases run firing.profile rest <;> rfl

theorem ofEvents_append (sorted : List Rule) (first second : List Event) :
    ofEvents sorted (first ++ second) = ofEvents sorted first ++ ofEvents sorted second :=
  List.flatMap_append

end Agenda

theorem evaluate_eq_run (rules : List Rule) (profile : Profile) (events : List Event)
    (now : Timestamp) :
    evaluate rules profile events now =
      (Agenda.run profile (Agenda.ofEvents (Rule.sortActive rules) events)).map fun reached =>
        ⟨reached.1.stamped (some now), reached.2⟩ := by
  rw [evaluate, Rule.runEvents_eq_run]
  cases Agenda.run profile (Agenda.ofEvents (Rule.sortActive rules) events) <;> rfl

theorem evaluate_append (rules : List Rule) (profile : Profile) (first second : List Event)
    (now : Timestamp) :
    evaluate rules profile (first ++ second) now = do
      let front ← evaluate rules profile first now
      let back ← evaluate rules front.profile second now
      return ⟨back.profile, front.trace ++ back.trace⟩ := by
  simp only [evaluate_eq_run, Agenda.ofEvents_append, Agenda.run_append]
  cases Agenda.run profile (Agenda.ofEvents (Rule.sortActive rules) first) with
  | error fault => rfl
  | ok middle =>
      simp only [Except.map, Outcome.ok_bind, Agenda.run_stamped]
      cases Agenda.run middle.1 (Agenda.ofEvents (Rule.sortActive rules) second) <;> rfl

/-- A joined batch has a result exactly when the first part has one and the second part has
    one from there: the last profile with both traces. It fails exactly when one of the two
    parts fails, with the fault of that part. -/
theorem evaluate_batches_in_turn (rules : List Rule) (profile : Profile)
    (first second : List Event) (now : Timestamp) :
    (∀ result, evaluate rules profile (first ++ second) now = .ok result ↔
      ∃ front back, evaluate rules profile first now = .ok front ∧
        evaluate rules front.profile second now = .ok back ∧
        result.profile = back.profile ∧ result.trace = front.trace ++ back.trace) ∧
    (∀ fault, evaluate rules profile (first ++ second) now = .error fault ↔
      evaluate rules profile first now = .error fault ∨
      ∃ front, evaluate rules profile first now = .ok front ∧
        evaluate rules front.profile second now = .error fault) := by
  rw [evaluate_append]
  refine ⟨fun result => ?_, fun fault => ?_⟩
  · rw [Outcome.bind_eq_ok_iff]
    refine exists_congr fun front => ?_
    rw [Outcome.bind_eq_ok_iff]
    constructor
    · rintro ⟨started, back, continued, same⟩
      cases same
      exact ⟨back, started, continued, rfl, rfl⟩
    · rintro ⟨back, started, continued, profiles, traces⟩
      refine ⟨started, back, continued, ?_⟩
      cases result
      simp_all
  · rw [Outcome.bind_eq_error_iff]
    refine or_congr_right (exists_congr fun front => and_congr_right fun _ => ?_)
    rw [Outcome.bind_eq_error_iff]
    simp

end NextOffer
