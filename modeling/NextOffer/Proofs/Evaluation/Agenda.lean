import NextOffer.Proofs.Evaluation.Turn

/-! # The agenda of an evaluation

An evaluation goes through events and, for each event, through rules. Its agenda lists all
these turns one after another, so that two nested loops become one run along one list. A
run along an agenda in two parts is a run along the first part and then along the second.
-/

namespace NextOffer

/-- Turns of rules to look at events, in the order in which they are taken. -/
abbrev Agenda := List (Event × Rule)

namespace Agenda

def ofEvent (event : Event) (rules : List Rule) : Agenda := rules.map (event, ·)

def ofEvents (sorted : List Rule) (events : List Event) : Agenda :=
  events.flatMap fun event => ofEvent event (Rule.matching sorted event.kind)

def run (profile : Profile) : Agenda → Except ArithmeticFault (Profile × List TraceEntry)
  | [] => .ok (profile, [])
  | (event, rule) :: rest => do
      match ← rule.turn event profile with
      | none => run profile rest
      | some firing =>
          let (final, trace) ← run firing.profile rest
          return (final, rule.entry firing :: trace)

/-- A finished run from one profile to another, with the trace it leaves. -/
inductive Runs : Profile → Agenda → Profile → List TraceEntry → Prop where
  | done (profile) : Runs profile [] profile []
  | idle {profile event rule rest final trace} (taken : rule.turn event profile = .ok none)
      (later : Runs profile rest final trace) : Runs profile ((event, rule) :: rest) final trace
  | fired {profile event rule firing rest final trace}
      (taken : rule.turn event profile = .ok (some firing))
      (later : Runs firing.profile rest final trace) :
      Runs profile ((event, rule) :: rest) final (rule.entry firing :: trace)

theorem run_eq_ok_iff {profile final : Profile} {agenda : Agenda} {trace : List TraceEntry} :
    run profile agenda = .ok (final, trace) ↔ Runs profile agenda final trace := by
  constructor
  · intro finished
    induction agenda generalizing profile trace with
    | nil => cases finished; exact .done _
    | cons item rest ih =>
        obtain ⟨event, rule⟩ := item
        obtain ⟨outcome, taken, later⟩ := Outcome.bind_eq_ok_iff.mp finished
        cases outcome with
        | none => exact .idle taken (ih later)
        | some firing =>
            obtain ⟨⟨last, tail⟩, reached, same⟩ := Outcome.bind_eq_ok_iff.mp later
            cases same
            exact .fired taken (ih reached)
  · intro runs
    induction runs with
    | done => rfl
    | idle taken _ ih => simp only [run, taken, Outcome.ok_bind, ih]
    | fired taken _ ih => simp only [run, taken, Outcome.ok_bind, ih, Outcome.pure_eq]

theorem run_append (profile : Profile) (first second : Agenda) :
    run profile (first ++ second) = do
      let (middle, trace) ← run profile first
      let (final, later) ← run middle second
      return (final, trace ++ later) := by
  induction first generalizing profile with
  | nil => cases reached : run profile second <;> simp [run, reached]
  | cons item rest ih =>
      obtain ⟨event, rule⟩ := item
      cases taken : rule.turn event profile with
      | error fault => simp [run, taken]
      | ok outcome =>
          cases outcome with
          | none => simp [run, taken, ih]
          | some firing =>
              cases reached : run firing.profile rest with
              | error fault => simp [run, taken, reached, ih]
              | ok middle =>
                  cases done : run middle.1 second <;> simp [run, taken, reached, done, ih]

theorem Runs.append_iff {profile final : Profile} {first second : Agenda}
    {trace : List TraceEntry} :
    Runs profile (first ++ second) final trace ↔
      ∃ middle earlier later, Runs profile first middle earlier ∧
        Runs middle second final later ∧ trace = earlier ++ later := by
  rw [← run_eq_ok_iff, run_append, Outcome.bind_eq_ok_iff]
  constructor
  · rintro ⟨⟨middle, earlier⟩, reached, rest⟩
    obtain ⟨⟨last, later⟩, done, same⟩ := Outcome.bind_eq_ok_iff.mp rest
    cases same
    exact ⟨middle, earlier, later, run_eq_ok_iff.mp reached, run_eq_ok_iff.mp done, rfl⟩
  · rintro ⟨middle, earlier, later, reached, done, rfl⟩
    refine ⟨(middle, earlier), run_eq_ok_iff.mpr reached, ?_⟩
    simp [run_eq_ok_iff.mpr done]

/-- A run fails at one turn, which it reaches along the turns before it. -/
theorem run_eq_error_iff {profile : Profile} {agenda : Agenda} {fault : ArithmeticFault} :
    run profile agenda = .error fault ↔
      ∃ before event rule after current trace, agenda = before ++ (event, rule) :: after ∧
        Runs profile before current trace ∧ rule.turn event current = .error fault := by
  constructor
  · intro failed
    induction agenda generalizing profile with
    | nil => cases failed
    | cons item rest ih =>
        obtain ⟨event, rule⟩ := item
        rcases Outcome.bind_eq_error_iff.mp failed with first | ⟨outcome, taken, later⟩
        · exact ⟨[], event, rule, rest, profile, [], rfl, .done profile, first⟩
        · cases outcome with
          | none =>
              obtain ⟨before, event', rule', after, current, trace, rfl, reached, found⟩ := ih later
              exact ⟨(event, rule) :: before, event', rule', after, current, trace, rfl,
                .idle taken reached, found⟩
          | some firing =>
              rcases Outcome.bind_eq_error_iff.mp later with later | ⟨_, _, impossible⟩
              · obtain ⟨before, event', rule', after, current, trace, rfl, reached, found⟩ :=
                  ih later
                exact ⟨(event, rule) :: before, event', rule', after, current,
                  rule.entry firing :: trace, rfl, .fired taken reached, found⟩
              · cases impossible
  · rintro ⟨before, event, rule, after, current, trace, rfl, reached, found⟩
    simp [run_append, run_eq_ok_iff.mpr reached, run, found]

end Agenda

namespace Rule

theorem runTurns_eq_run (event : Event) (profile : Profile) (rules : List Rule) :
    runTurns event profile rules = Agenda.run profile (Agenda.ofEvent event rules) := by
  induction rules generalizing profile with
  | nil => rfl
  | cons rule rest ih =>
      cases taken : rule.turn event profile with
      | error fault => simp [runTurns, Agenda.ofEvent, Agenda.run, taken]
      | ok outcome =>
          cases outcome with
          | none => simp [runTurns, Agenda.ofEvent, Agenda.run, taken, ih]
          | some firing => simp [runTurns, Agenda.ofEvent, Agenda.run, taken, ih]

/-- The two nested loops over events and rules are one run along the agenda. -/
theorem runEvents_eq_run (sorted : List Rule) (profile : Profile) (events : List Event) :
    runEvents sorted profile events = Agenda.run profile (Agenda.ofEvents sorted events) := by
  induction events generalizing profile with
  | nil => rfl
  | cons event rest ih =>
      simp only [runEvents, runTurns_eq_run, ih, Agenda.ofEvents, List.flatMap_cons,
        Agenda.run_append]

end Rule

/-- An evaluation has a result exactly when its agenda is run to the end; then it returns
    the profile of that run, stamped, and the trace. -/
theorem evaluate_eq_ok_iff {rules : List Rule} {profile : Profile} {events : List Event}
    {now : Timestamp} {result : Evaluation} :
    evaluate rules profile events now = .ok result ↔
      ∃ final, Agenda.Runs profile (Agenda.ofEvents (Rule.sortActive rules) events) final
          result.trace ∧
        result.profile = { final with lastUpdated := some now } := by
  rw [evaluate, Rule.runEvents_eq_run, Outcome.bind_eq_ok_iff]
  constructor
  · rintro ⟨⟨final, trace⟩, reached, same⟩
    cases same
    exact ⟨final, Agenda.run_eq_ok_iff.mp reached, rfl⟩
  · rintro ⟨final, runs, stamped⟩
    refine ⟨(final, result.trace), Agenda.run_eq_ok_iff.mpr runs, ?_⟩
    cases result
    simp_all

theorem evaluate_eq_error_iff {rules : List Rule} {profile : Profile} {events : List Event}
    {now : Timestamp} {fault : ArithmeticFault} :
    evaluate rules profile events now = .error fault ↔
      Agenda.run profile (Agenda.ofEvents (Rule.sortActive rules) events) = .error fault := by
  rw [evaluate, Rule.runEvents_eq_run, Outcome.bind_eq_error_iff]
  simp

end NextOffer
