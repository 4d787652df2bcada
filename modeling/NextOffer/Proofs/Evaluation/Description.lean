import NextOffer.Proofs.Evaluation.Change

/-! # Changes are described

An effect that changes a profile says so, and an effect about a tag that says something changes
that tag alone. The text of a trace entry joins what the effects of a rule said, so that an
empty text stands for a rule that changed nothing, and a trace of empty texts for an evaluation
that only stamped the profile.
-/

namespace NextOffer

/-- One tag comes or goes, and everything else stays as it is, in its order. -/
structure Profile.Flips (tag : String) (before after : Profile) : Prop where
  flipped : tag ∈ after.tags ↔ tag ∉ before.tags
  others : after.tags.filter (· ≠ tag) = before.tags.filter (· ≠ tag)
  tags_nodup : after.tags.Nodup
  rest : after = { before with tags := after.tags }

namespace Profile

variable {profile : Profile} {tag : String}

theorem flips_append (distinct : profile.tags.Nodup) (absent : tag ∉ profile.tags) :
    Flips tag profile { profile with tags := profile.tags ++ [tag] } where
  flipped := by simp [absent]
  others := by simp
  tags_nodup := by simpa using List.Nodup.concat absent distinct
  rest := rfl

theorem flips_erase (distinct : profile.tags.Nodup) (present : tag ∈ profile.tags) :
    Flips tag profile { profile with tags := profile.tags.erase tag } where
  flipped := by simp [distinct.mem_erase_iff, present]
  others := by
    rw [← List.erase_filter]
    exact List.erase_of_not_mem (by simp)
  tags_nodup := distinct.erase tag
  rest := rfl

end Profile

namespace Effect

variable {profile final : Profile} {effect : Effect} {applied : Applied} {effects : List Effect}
  {texts : List String}

/-- An effect that says nothing changes nothing. -/
theorem unchanged_of_silent (done : effect.apply profile = .ok applied)
    (silent : applied.description = "") : applied.profile = profile := by
  unfold apply at done
  split at done
  case h_1 score delta =>
      split at done
      case isTrue => cases done; rfl
      case isFalse =>
          obtain ⟨value, -, rest⟩ := Outcome.bind_eq_ok_iff.mp done
          obtain ⟨text, told, same⟩ := Outcome.bind_eq_ok_iff.mp rest
          cases same
          exact absurd silent (changeText_ne_empty told)
  case h_2 tag | h_3 tag =>
      split at done
      case isTrue => cases done; rfl
      case isFalse =>
          cases done
          simp [toString] at silent
  case h_4 => cases done; rfl

theorem flips_of_told (distinct : profile.tags.Nodup) (done : effect.apply profile = .ok applied)
    (about : effect.kind ≠ .scoreDelta) (told : applied.description ≠ "") :
    ∃ tag, (effect = .addTag (some tag) ∨ effect = .removeTag (some tag)) ∧
      profile.Flips tag applied.profile := by
  unfold apply at done
  split at done
  case h_1 => exact absurd rfl about
  case h_2 tag =>
      split at done
      case isTrue => cases done; exact absurd rfl told
      case isFalse fresh =>
          cases done
          have absent : tag ∉ profile.tags := by simp_all [Profile.hasTag]
          exact ⟨tag, .inl rfl, Profile.flips_append distinct absent⟩
  case h_3 tag =>
      split at done
      case isTrue => cases done; exact absurd rfl told
      case isFalse known =>
          cases done
          have present : tag ∈ profile.tags := by simp_all [Profile.hasTag]
          exact ⟨tag, .inr rfl, Profile.flips_erase distinct present⟩
  case h_4 => cases done; exact absurd rfl told

theorem empty_not_mem_of_applyAll (done : applyAll profile effects = .ok (final, texts)) :
    "" ∉ texts := by
  induction effects generalizing profile texts with
  | nil => cases done; exact List.not_mem_nil
  | cons effect rest ih =>
      obtain ⟨change, -, later⟩ := Outcome.bind_eq_ok_iff.mp done
      obtain ⟨⟨last, told⟩, reached, same⟩ := Outcome.bind_eq_ok_iff.mp later
      cases same
      by_cases silent : change.description = ""
      · simpa [silent] using ih reached
      · simpa [silent, Ne.symm silent] using ih reached

theorem unchanged_of_applyAll (done : applyAll profile effects = .ok (final, [])) :
    final = profile := by
  induction effects generalizing profile with
  | nil => cases done; rfl
  | cons effect rest ih =>
      obtain ⟨change, applied, later⟩ := Outcome.bind_eq_ok_iff.mp done
      obtain ⟨⟨last, told⟩, reached, same⟩ := Outcome.bind_eq_ok_iff.mp later
      by_cases silent : change.description = ""
      · simp only [silent, if_true] at same
        cases same
        rw [ih reached, unchanged_of_silent applied silent]
      · simp [silent] at same

end Effect

theorem Text.eq_nil_of_intercalate {separator : String} {texts : List String}
    (content : "" ∉ texts) (joined : separator.intercalate texts = "") : texts = [] := by
  cases texts with
  | nil => rfl
  | cons first rest =>
      have nonempty : first ≠ "" := fun empty => content (empty ▸ List.mem_cons_self)
      cases rest with
      | nil => exact absurd (String.intercalate_singleton.symm.trans joined) nonempty
      | cons second more =>
          rw [String.intercalate_cons_cons, String.append_assoc, String.append_eq_empty_iff]
            at joined
          exact absurd joined.1 nonempty

theorem Rule.unchanged_of_turn {rule : Rule} {event : Event} {profile : Profile} {firing : Firing}
    (fired : rule.turn event profile = .ok (some firing))
    (silent : (rule.entry firing).effectDescription = "") : firing.profile = profile := by
  have done := (turn_eq_some_iff.mp fired).2
  have none := Text.eq_nil_of_intercalate (Effect.empty_not_mem_of_applyAll done) silent
  rw [none] at done
  exact Effect.unchanged_of_applyAll done

namespace Agenda

variable {profile final : Profile} {agenda : Agenda} {trace : List TraceEntry}

/-- Every entry of a trace is left by a turn, and the entries around it by the turns around. -/
theorem Runs.exists_turn {front back : List TraceEntry} {entry : TraceEntry}
    (runs : Runs profile agenda final (front ++ entry :: back)) :
    ∃ before event rule after current firing, agenda = before ++ (event, rule) :: after ∧
      Runs profile before current front ∧ rule.turn event current = .ok (some firing) ∧
      entry = rule.entry firing ∧ Runs firing.profile after final back := by
  generalize whole : front ++ entry :: back = trace at runs
  induction runs generalizing front with
  | done => exact absurd whole (by simp)
  | @idle _ event rule _ _ _ taken _ ih =>
      obtain ⟨before, event', rule', after, current, firing, rfl, earlier, found⟩ := ih whole
      exact ⟨(event, rule) :: before, event', rule', after, current, firing, rfl,
        .idle taken earlier, found⟩
  | @fired start event rule firing _ _ _ taken later ih =>
      cases front with
      | nil =>
          obtain ⟨rfl, rfl⟩ := List.cons.inj whole
          exact ⟨[], event, rule, _, start, firing, rfl, .done _, taken, rfl, later⟩
      | cons first front =>
          obtain ⟨rfl, rest⟩ := List.cons.inj whole
          obtain ⟨before, event', rule', after, current, firing', rfl, earlier, found⟩ := ih rest
          exact ⟨(event, rule) :: before, event', rule', after, current, firing', rfl,
            .fired taken earlier, found⟩

theorem Runs.unchanged (runs : Runs profile agenda final trace)
    (silent : ∀ entry ∈ trace, entry.effectDescription = "") : final = profile := by
  induction runs with
  | done => rfl
  | idle _ _ ih => exact ih silent
  | fired taken _ ih =>
      obtain ⟨first, rest⟩ := List.forall_mem_cons.mp silent
      rw [ih rest, Rule.unchanged_of_turn taken first]

end Agenda

/-- What descriptions tell about an evaluation. -/
structure Evaluation.Described (rules : List Rule) (profile : Profile) (events : List Event)
    (now : Timestamp) : Prop where
  /-- An effect that says nothing changes nothing, and one about a tag that says something
      changes that tag alone. -/
  effects : ∀ (current : Profile) (effect : Effect) (applied : Applied),
    current.tags.Nodup → effect.apply current = .ok applied →
    (applied.description = "" → applied.profile = current) ∧
    (effect.kind ≠ .scoreDelta → applied.description ≠ "" →
      ∃ tag, (effect = .addTag (some tag) ∨ effect = .removeTag (some tag)) ∧
        current.Flips tag applied.profile)
  /-- An entry belongs to the turn that left it, and with an empty text the turn left the
      profile as it was. -/
  entries : ∀ result, evaluate rules profile events now = .ok result →
    ∀ front entry back, result.trace = front ++ entry :: back →
      ∃ before event rule after current firing final,
        Agenda.ofEvents (Rule.sortActive rules) events = before ++ (event, rule) :: after ∧
        Agenda.Runs profile before current front ∧
        rule.turn event current = .ok (some firing) ∧ entry = rule.entry firing ∧
        Agenda.Runs firing.profile after final back ∧
        result.profile = { final with lastUpdated := some now } ∧
        (entry.effectDescription = "" → firing.profile = current)
  /-- If all texts are empty, nothing but the stamp is new. -/
  unchanged : ∀ result, evaluate rules profile events now = .ok result →
    (∀ entry ∈ result.trace, entry.effectDescription = "") →
      result.profile = { profile with lastUpdated := some now }

/-- No evaluation changes a profile without a description. -/
theorem evaluate_described (rules : List Rule) (profile : Profile) (events : List Event)
    (now : Timestamp) : Evaluation.Described rules profile events now where
  effects _ _ _ distinct done :=
    ⟨Effect.unchanged_of_silent done, Effect.flips_of_told distinct done⟩
  entries result returned front entry back whole := by
    obtain ⟨final, runs, stamped⟩ := evaluate_eq_ok_iff.mp returned
    rw [whole] at runs
    obtain ⟨before, event, rule, after, current, firing, turns, earlier, fired, left, later⟩ :=
      runs.exists_turn
    refine ⟨before, event, rule, after, current, firing, final, turns, earlier, fired, left,
      later, stamped, fun silent => ?_⟩
    exact Rule.unchanged_of_turn fired (left ▸ silent)
  unchanged result returned silent := by
    obtain ⟨final, runs, stamped⟩ := evaluate_eq_ok_iff.mp returned
    rw [stamped, runs.unchanged silent]

namespace Rule

/-- Tries to add a tag that is there and to remove one that is not. -/
def settled : Rule :=
  { id := "settled", name := "Settled", status := .active, event := .login
    effects := [.addTag (some "renter"), .removeTag (some "owner"), .scoreDelta none (some 1)] }

def renter : Profile := { customerId := "C1", scores := [("visits", .int 0)], tags := ["renter"] }

/-- Effects that have nothing to do leave an entry without a text, and the profile; the same tag
    can still be removed, and that is told. -/
theorem evaluate_described_renter :
    ∃ now : Timestamp, ∃ result applied,
      evaluate [settled] renter [⟨.login, []⟩, ⟨.login, []⟩] now = .ok result ∧
      result.trace = [⟨"settled", "Settled", ""⟩, ⟨"settled", "Settled", ""⟩] ∧
      result.profile = { renter with lastUpdated := some now } ∧
      renter.tags.Nodup ∧ (Effect.removeTag (some "renter")).apply renter = .ok applied ∧
      applied.description = "Removed tag \"renter\"" ∧ ∃ tag, renter.Flips tag applied.profile := by
  have described := evaluate_described [settled] renter [⟨.login, []⟩, ⟨.login, []⟩]
    (.midnight ⟨2026, 2, 5, by decide⟩ none)
  have turn : settled.turn ⟨.login, []⟩ renter = .ok (some ⟨renter, []⟩) := rfl
  have sorted : sortActive [settled] = [settled] := by simp [sortActive, settled, isActive]
  have returned : evaluate [settled] renter [⟨.login, []⟩, ⟨.login, []⟩]
      (.midnight ⟨2026, 2, 5, by decide⟩ none) =
      .ok ⟨{ renter with lastUpdated := some (.midnight ⟨2026, 2, 5, by decide⟩ none) },
        [⟨"settled", "Settled", ""⟩, ⟨"settled", "Settled", ""⟩]⟩ := by
    refine evaluate_eq_ok_iff.mpr ⟨renter, ?_, rfl⟩
    rw [sorted]
    exact .fired turn (.fired turn (.done _))
  have removed : (Effect.removeTag (some "renter")).apply renter =
      .ok ⟨{ renter with tags := [] }, "Removed tag \"renter\""⟩ := rfl
  obtain ⟨tag, -, flips⟩ := (described.effects _ _ _ (by decide) removed).2 (by decide) (by decide)
  exact ⟨_, _, _, returned, rfl, described.unchanged _ returned (by simp), by decide, removed, rfl,
    tag, flips⟩

end Rule

end NextOffer
