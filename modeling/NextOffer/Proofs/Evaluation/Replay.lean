import NextOffer.Proofs.Evaluation.Change
import NextOffer.Proofs.Evaluation.TurnOrder

/-! # Replaying a trace

A trace tells all that an evaluation did. To replay it, apply the effects of the rules that
it names, in its order. A replay of the whole trace leads from the first profile to the
last one, and a replay of everything before a rule's turn gives the profile that the rule
looked at: the rule is missing from the trace exactly when one of its conditions is false
there.
-/

namespace NextOffer

namespace Effect

/-- Apply effects one after another. Every effect leaves a text, an empty one if it says
    nothing. -/
def replay? (profile : Profile) : List Effect → Option (Profile × List String)
  | [] => some (profile, [])
  | effect :: rest =>
      match effect.apply profile with
      | .error _ => none
      | .ok applied =>
          (replay? applied.profile rest).map fun reached =>
            (reached.1, applied.description :: reached.2)

theorem replay?_of_applyAll {profile final : Profile} {effects : List Effect}
    {descriptions : List String} (done : applyAll profile effects = .ok (final, descriptions)) :
    ∃ texts, replay? profile effects = some (final, texts) ∧
      descriptions = texts.filter (· ≠ "") := by
  induction effects generalizing profile descriptions with
  | nil => cases done; exact ⟨[], rfl, rfl⟩
  | cons effect rest ih =>
      obtain ⟨change, applied, later⟩ := Outcome.bind_eq_ok_iff.mp done
      obtain ⟨⟨last, told⟩, reached, same⟩ := Outcome.bind_eq_ok_iff.mp later
      cases same
      obtain ⟨texts, replayed, filtered⟩ := ih reached
      refine ⟨change.description :: texts, ?_, ?_⟩
      · simp only [replay?, applied, replayed, Option.map_some]
      · by_cases silent : change.description = "" <;> simp [silent, filtered]

end Effect

namespace Rule

def withId? (rules : List Rule) (id : String) : Option Rule := rules.find? fun rule => rule.id = id

theorem withId?_of_mem {rules : List Rule} (distinct : (rules.map id).Nodup) {rule : Rule}
    (member : rule ∈ rules) : withId? rules rule.id = some rule := by
  induction rules with
  | nil => cases member
  | cons head rest ih =>
      obtain ⟨fresh, distinct⟩ := List.nodup_cons.mp distinct
      rcases List.mem_cons.mp member with rfl | member
      · simp [withId?]
      · have other : head.id ≠ rule.id := fun same => fresh (same ▸ List.mem_map_of_mem member)
        simpa [withId?, other] using ih distinct member

end Rule

namespace Trace

/-- Apply all effects of the rule that an entry names, for one entry after another. Gives
    the last profile and the texts of the effects, entry by entry. -/
def replay? (rules : List Rule) (profile : Profile) :
    List TraceEntry → Option (Profile × List (List String))
  | [] => some (profile, [])
  | entry :: rest => do
      let rule ← Rule.withId? rules entry.ruleId
      let (next, texts) ← Effect.replay? profile rule.effects
      let (final, later) ← replay? rules next rest
      return (final, texts :: later)

def joined (texts : List String) : String := "; ".intercalate (texts.filter (· ≠ ""))

theorem replay?_append {rules : List Rule} {profile middle : Profile}
    {front : List TraceEntry} {texts : List (List String)}
    (reached : replay? rules profile front = some (middle, texts)) (rest : List TraceEntry) :
    replay? rules profile (front ++ rest) =
      (replay? rules middle rest).map fun done => (done.1, texts ++ done.2) := by
  induction front generalizing profile texts with
  | nil =>
      cases reached
      rw [List.nil_append]
      cases replay? rules middle rest <;> rfl
  | cons entry front ih =>
      simp only [replay?, bind, Option.bind_eq_some_iff, Prod.exists] at reached
      obtain ⟨rule, named, next, said, applied, last, later, replayed, same⟩ := reached
      cases same
      simp only [List.cons_append, replay?, bind, named, applied, ih replayed, Option.bind_some]
      cases replay? rules middle rest <;> rfl

/-- A run can be replayed from its trace alone, and the trace says what the effects said. -/
theorem replay?_of_runs {rules : List Rule} {profile final : Profile} {agenda : Agenda}
    {trace : List TraceEntry} (runs : Agenda.Runs profile agenda final trace)
    (known : ∀ item ∈ agenda, Rule.withId? rules item.2.id = some item.2) :
    ∃ texts, replay? rules profile trace = some (final, texts) ∧
      trace.map (·.effectDescription) = texts.map joined := by
  induction runs with
  | done => exact ⟨[], rfl, rfl⟩
  | idle _ _ ih => exact ih fun item member => known item (.tail _ member)
  | @fired _ event rule firing _ _ _ taken _ ih =>
      obtain ⟨later, replayed, told⟩ := ih fun item member => known item (.tail _ member)
      obtain ⟨texts, applied, filtered⟩ :=
        Effect.replay?_of_applyAll (Rule.turn_eq_some_iff.mp taken).2
      have named : Rule.withId? rules rule.id = some rule := known (event, rule) (.head _)
      refine ⟨texts :: later, ?_, ?_⟩
      · simp [replay?, Rule.entry, named, applied, replayed]
      · rw [List.map_cons, List.map_cons, told]
        simp only [Rule.entry, filtered, joined]

/-- The account that a trace gives of one event, whose rules have the given turns, after the
    entries of earlier events. -/
structure Account (rules : List Rule) (profile : Profile) (event : Event) (turns : List Rule)
    (earlier block : List TraceEntry) : Prop where
  ordered : (block.map fun entry => (entry.ruleId, entry.ruleName)).Sublist
    (turns.map fun rule => (rule.id, rule.name))
  once : (block.map (·.ruleId)).Nodup
  /-- A rule is missing exactly when a condition is false in what a replay up to its turn
      gives. -/
  missing : ∀ before rule after, turns = before ++ rule :: after →
    ∃ current texts,
      replay? rules profile
          (earlier ++ block.filter fun entry => entry.ruleId ∈ before.map Rule.id) =
        some (current, texts) ∧
      ((∀ entry ∈ block, entry.ruleId ≠ rule.id) ↔
        ∃ condition ∈ rule.conditions,
          condition.holds (evaluationContext current event) = .ok false)

theorem ordered_of_runs (turns : List Rule) {profile final : Profile} {event : Event}
    {block : List TraceEntry}
    (runs : Agenda.Runs profile (Agenda.ofEvent event turns) final block) :
    (block.map fun entry => (entry.ruleId, entry.ruleName)).Sublist
      (turns.map fun rule => (rule.id, rule.name)) := by
  induction turns generalizing profile block with
  | nil => cases runs; exact .slnil
  | cons rule rest ih =>
      cases runs with
      | idle _ later => exact (ih later).cons _
      | fired _ later => exact (ih later).cons_cons _

theorem ruleId_mem_of_runs (turns : List Rule) {profile final : Profile} {event : Event}
    {block : List TraceEntry}
    (runs : Agenda.Runs profile (Agenda.ofEvent event turns) final block) {entry : TraceEntry}
    (member : entry ∈ block) : entry.ruleId ∈ turns.map Rule.id := by
  have pair := (ordered_of_runs turns runs).subset (List.mem_map_of_mem member)
  obtain ⟨rule, inside, same⟩ := List.mem_map.mp pair
  exact List.mem_map.mpr ⟨rule, inside, congrArg Prod.fst same⟩

/-- Ids tell the entries of earlier rules apart from those of later ones. -/
theorem filter_front_of_runs {before rest : List Rule} {profile middle final : Profile}
    {event : Event} {front back : List TraceEntry}
    (distinct : ((before ++ rest).map Rule.id).Nodup)
    (first : Agenda.Runs profile (Agenda.ofEvent event before) middle front)
    (second : Agenda.Runs middle (Agenda.ofEvent event rest) final back) :
    (front ++ back).filter (fun entry => entry.ruleId ∈ before.map Rule.id) = front := by
  have inFront : ∀ entry ∈ front, entry.ruleId ∈ before.map Rule.id :=
    fun entry member => ruleId_mem_of_runs before first member
  rw [List.filter_append, List.filter_eq_self.mpr (by simpa using inFront),
    List.filter_eq_nil_iff.mpr, List.append_nil]
  intro entry member inside
  rw [List.map_append, List.nodup_append] at distinct
  exact distinct.2.2 _ (of_decide_eq_true inside) _ (ruleId_mem_of_runs rest second member) rfl

/-- The rule whose turn comes first leaves no entry exactly when one of its conditions is
    false. -/
theorem absent_iff_of_runs {rule : Rule} {after : List Rule} {profile final : Profile}
    {event : Event} {block : List TraceEntry} (distinct : ((rule :: after).map Rule.id).Nodup)
    (runs : Agenda.Runs profile (Agenda.ofEvent event (rule :: after)) final block) :
    (∀ entry ∈ block, entry.ruleId ≠ rule.id) ↔
      ∃ condition ∈ rule.conditions,
        condition.holds (evaluationContext profile event) = .ok false := by
  cases runs with
  | idle taken later =>
      have failed := Rule.turn_eq_none_iff.mp taken
      refine ⟨fun _ => (Condition.allHold_false_iff_exists failed).mp rfl, fun _ => ?_⟩
      intro entry member same
      have inAfter := ruleId_mem_of_runs after later member
      exact (List.nodup_cons.mp distinct).1 (same ▸ inAfter)
  | @fired _ _ _ firing _ _ _ taken =>
      have met := (Rule.turn_eq_some_iff.mp taken).1
      constructor
      · intro absent
        exact absurd rfl (absent (rule.entry firing) (.head _))
      · intro failed
        cases (Condition.allHold_false_iff_exists met).mpr failed

theorem account_of_runs {rules turns : List Rule} {start profile final : Profile} {event : Event}
    {earlier block : List TraceEntry} {told : List (List String)}
    (distinct : (turns.map Rule.id).Nodup)
    (known : ∀ rule ∈ turns, Rule.withId? rules rule.id = some rule)
    (reached : replay? rules start earlier = some (profile, told))
    (runs : Agenda.Runs profile (Agenda.ofEvent event turns) final block) :
    Account rules start event turns earlier block where
  ordered := ordered_of_runs turns runs
  once := by
    have ids := (ordered_of_runs turns runs).map Prod.fst
    simp only [List.map_map, Function.comp_def] at ids
    exact ids.nodup distinct
  missing := by
    rintro before rule after rfl
    simp only [Agenda.ofEvent, List.map_append] at runs
    obtain ⟨current, front, back, first, second, rfl⟩ := Agenda.Runs.append_iff.mp runs
    obtain ⟨texts, replayed, -⟩ := replay?_of_runs first (by
      intro item member
      obtain ⟨earlierRule, inside, rfl⟩ := List.mem_map.mp member
      exact known earlierRule (by simp [inside]))
    have apart : (before.map Rule.id ++ (rule :: after).map Rule.id).Nodup :=
      List.map_append ▸ distinct
    refine ⟨current, told ++ texts, ?_, ?_⟩
    · rw [filter_front_of_runs distinct first second, replay?_append reached, replayed]
      rfl
    · rw [← absent_iff_of_runs (List.nodup_append.mp apart).2.1 second]
      -- Entries of earlier rules never carry the id, so only the back part matters.
      refine ⟨fun absent entry member => absent entry (List.mem_append_right _ member),
        fun absent entry member => ?_⟩
      rcases List.mem_append.mp member with member | member
      · exact (List.nodup_append.mp apart).2.2 _ (ruleId_mem_of_runs before first member) _
          (by simp)
      · exact absent entry member

theorem accounts_of_runs (earlier : List TraceEntry) {rules sorted : List Rule}
    {start profile final : Profile} {events : List Event} {trace : List TraceEntry}
    {told : List (List String)}
    (distinct : ∀ kind, ((Rule.matching sorted kind).map Rule.id).Nodup)
    (known : ∀ kind, ∀ rule ∈ Rule.matching sorted kind, Rule.withId? rules rule.id = some rule)
    (reached : replay? rules start earlier = some (profile, told))
    (runs : Agenda.Runs profile (Agenda.ofEvents sorted events) final trace) :
    ∃ blocks : List (List TraceEntry), blocks.flatten = trace ∧ blocks.length = events.length ∧
      ∀ i event block, events[i]? = some event → blocks[i]? = some block →
        Account rules start event (Rule.matching sorted event.kind)
          (earlier ++ (blocks.take i).flatten) block := by
  induction events generalizing profile earlier trace told with
  | nil =>
      cases runs
      exact ⟨[], rfl, rfl, fun i event block present => by simp at present⟩
  | cons event rest ih =>
      obtain ⟨middle, block, later, first, second, rfl⟩ := Agenda.Runs.append_iff.mp runs
      obtain ⟨texts, replayed, -⟩ := replay?_of_runs first (by
        intro item member
        obtain ⟨rule, inside, rfl⟩ := List.mem_map.mp member
        exact known _ rule inside)
      have extended : replay? rules start (earlier ++ block) = some (middle, told ++ texts) := by
        rw [replay?_append reached, replayed]
        rfl
      obtain ⟨blocks, rfl, size, accounts⟩ := ih _ extended second
      refine ⟨block :: blocks, rfl, by simp [size], ?_⟩
      intro i event' block' eventAt blockAt
      cases i with
      | zero =>
          cases eventAt
          cases blockAt
          simpa using account_of_runs (distinct _) (known _) reached first
      | succ i =>
          simpa only [List.take_succ_cons, List.flatten_cons, List.append_assoc] using
            accounts i event' block' eventAt blockAt

end Trace

structure Evaluation.Explained (rules : List Rule) (profile : Profile) (events : List Event)
    (now : Timestamp) (result : Evaluation) : Prop where
  /-- A replay of the trace leads to the returned profile, and every entry describes what
      its effects said. -/
  replayed : ∃ final texts, Trace.replay? rules profile result.trace = some (final, texts) ∧
    result.profile = { final with lastUpdated := some now } ∧
    result.trace.map (·.effectDescription) = texts.map Trace.joined
  /-- The trace is one block for each event, and each block gives an account of its event. -/
  accounted : ∃ (turns : EventKind → List Rule) (blocks : List (List TraceEntry)),
    (∀ kind, Rule.TurnOrder rules kind (turns kind)) ∧
    blocks.flatten = result.trace ∧ blocks.length = events.length ∧
    ∀ i event block, events[i]? = some event → blocks[i]? = some block →
      Trace.Account rules profile event (turns event.kind) (blocks.take i).flatten block

/-- The trace of an evaluation explains it, for rules without repeated ids. -/
theorem evaluate_explained (rules : List Rule) (profile : Profile) (events : List Event)
    (now : Timestamp) (result : Evaluation) (distinct : (rules.map Rule.id).Nodup)
    (returned : evaluate rules profile events now = .ok result) :
    Evaluation.Explained rules profile events now result := by
  obtain ⟨final, runs, stamped⟩ := evaluate_eq_ok_iff.mp returned
  have known : ∀ kind, ∀ rule ∈ Rule.matching (Rule.sortActive rules) kind,
      Rule.withId? rules rule.id = some rule := by
    intro kind rule member
    have eligible := (Rule.turnOrder_matching rules kind).complete.subset member
    exact Rule.withId?_of_mem distinct (List.mem_filter.mp eligible).1
  have fresh : ∀ kind, ((Rule.matching (Rule.sortActive rules) kind).map Rule.id).Nodup := by
    intro kind
    have ids := (Rule.turnOrder_matching rules kind).complete.map Rule.id
    exact ids.nodup_iff.mpr ((List.filter_sublist.map Rule.id).nodup distinct)
  constructor
  · obtain ⟨texts, replayed, told⟩ := Trace.replay?_of_runs runs (by
      intro item member
      obtain ⟨event, _, turn⟩ := List.mem_flatMap.mp member
      obtain ⟨rule, inside, rfl⟩ := List.mem_map.mp turn
      exact known _ rule inside)
    exact ⟨final, texts, replayed, stamped, told⟩
  · obtain ⟨blocks, whole, size, accounts⟩ :=
      Trace.accounts_of_runs [] fresh known rfl runs
    exact ⟨_, blocks, Rule.turnOrder_matching rules, whole, size, accounts⟩

namespace Rule

def regular : Rule :=
  { id := "regular", name := "Regular", status := .active, priority := 10, event := .login
    conditions := [⟨"profile.scores.visits", "=", some (.scalar (.number 2))⟩]
    effects := [.addTag (some "regular")] }

def visited (visits : Nat) : Profile := { customerId := "C1", scores := [("visits", .int visits)] }

/-- What two visits come to: the rule for the second one is missing from the first block. -/
def visitedTwice : Evaluation where
  profile := { visited 2 with
    tags := ["regular"], lastUpdated := some (.midnight ⟨2026, 2, 5, by decide⟩ none) }
  trace := [⟨"visit", "Visit", "visits +1 (0 → 1)"⟩, ⟨"visit", "Visit", "visits +1 (1 → 2)"⟩,
    ⟨"regular", "Regular", "Added tag \"regular\""⟩]

theorem evaluate_explained_visitedTwice :
    ([regular, visit].map id).Nodup ∧
    evaluate [regular, visit] (visited 0) [⟨.login, []⟩, ⟨.login, []⟩]
      (.midnight ⟨2026, 2, 5, by decide⟩ none) = .ok visitedTwice ∧
    Evaluation.Explained [regular, visit] (visited 0) [⟨.login, []⟩, ⟨.login, []⟩]
      (.midnight ⟨2026, 2, 5, by decide⟩ none) visitedTwice := by
  have sorted : sortActive [regular, visit] = [visit, regular] := by
    simp [sortActive, regular, visit, isActive, List.mergeSort, List.MergeSort.Internal.splitInTwo]
  have turned : ∀ (n : Nat) (text : String),
      Effect.changeText "visits" 1 (.int n) (.int (n + 1)) = .ok text →
        visit.turn ⟨.login, []⟩ (visited n) = .ok (some ⟨visited (n + 1), [text]⟩) := by
    intro n text told
    have old : (visited n).score "visits" = .int n := by
      by_cases none : n = 0 <;> simp [visited, Profile.score, Fields.get?, Number.isZero, none]
    have sum : ((visited n).score "visits").add 1 = .ok (.int (n + 1)) := by
      rw [old]
      rfl
    exact turn_eq_some_iff.mpr ⟨rfl,
      Effect.applyAll_scoreDelta_cons (by decide) sum (old ▸ told) rfl⟩
  have first := turned 0 "visits +1 (0 → 1)" (by decide +kernel)
  have missed : regular.turn ⟨.login, []⟩ (visited 1) = .ok none := rfl
  have second := turned 1 "visits +1 (1 → 2)" (by decide +kernel)
  have met : regular.turn ⟨.login, []⟩ (visited 2) =
      .ok (some ⟨{ visited 2 with tags := ["regular"] }, ["Added tag \"regular\""]⟩) := rfl
  have returned : evaluate [regular, visit] (visited 0) [⟨.login, []⟩, ⟨.login, []⟩]
      (.midnight ⟨2026, 2, 5, by decide⟩ none) = .ok visitedTwice := by
    refine evaluate_eq_ok_iff.mpr ⟨{ visited 2 with tags := ["regular"] }, ?_, rfl⟩
    rw [sorted]
    exact .fired first (.idle missed (.fired second (.fired met (.done _))))
  exact ⟨by decide, returned, evaluate_explained _ _ _ _ _ (by decide) returned⟩

end Rule

end NextOffer
