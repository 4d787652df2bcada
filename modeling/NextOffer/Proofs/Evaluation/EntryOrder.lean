import Mathlib.Data.List.Forall2
import NextOffer.Proofs.Evaluation.Change
import NextOffer.Proofs.Evaluation.Splitting
import NextOffer.Proofs.Json.EntryOrder

/-! # Rules and the order of entries

No rule can tell in which order the entries of an object are listed. Two evaluations that
start from the same profile and the same events, up to the order of entries, take the same
turns: they are compared turn by turn, and their profiles stay the same up to order, with
running scores that may be listed in different orders all the way.
-/

namespace NextOffer

open Json (SameEntry)

/-- The same profile up to the order of its scores and of the entries in its attributes and
    counters, at any depth. -/
structure Profile.Reordered (first second : Profile) : Prop where
  customerId : first.customerId = second.customerId
  staticData : Json.Reordered (.object first.staticData) (.object second.staticData)
  behavioral : Json.Reordered (.object first.behavioral) (.object second.behavioral)
  scores : first.scores.Perm second.scores
  tags : first.tags = second.tags
  lastUpdated : first.lastUpdated = second.lastUpdated

/-- The same event up to the order of the entries in its payload, at any depth. -/
structure Event.Reordered (first second : Event) : Prop where
  kind : first.kind = second.kind
  payload : Json.Reordered (.object first.payload) (.object second.payload)

/-- The same outcome up to the order of entries in the profile. -/
structure Evaluation.Reordered (first second : Evaluation) : Prop where
  profile : first.profile.Reordered second.profile
  trace : first.trace = second.trace
  /-- Every score has the same value, so that the scores are one mapping. -/
  scores : ∀ name, first.profile.scores.get? name = second.profile.scores.get? name

section Conditions

theorem Operator.compare_congr {op : Operator} {value value' target : Json.Value}
    (measure : value.measure = value'.measure) (text : value.foldedText = value'.foldedText) :
    op.compare value target = op.compare value' target := by
  unfold compare
  rw [measure, text]

theorem satisfies_eq_of_sameEntry {found found' : Option Json.Value}
    (same : SameEntry found found')
    (distinct : ∀ value, found = some value → value.Everywhere Json.Value.HasDistinctNames)
    (sign : String) (target : Json.Value) :
    satisfies found sign target = satisfies found' sign target := by
  cases same with
  | none => rfl
  | @some value value' reordered =>
      by_cases null : value = .null
      · rw [reordered.eq_null_iff.mp null, null]
      · have text := reordered.foldedText_eq (distinct value rfl)
        rw [satisfies_some null, satisfies_some (reordered.eq_null_iff.not.mp null)]
        cases Operator.ofWord? sign with
        | none => rfl
        | some op => exact Operator.compare_congr reordered.measure_eq text

variable {context context' : Json.Value}

theorem Condition.holds_reordered (reordered : Json.Reordered context context')
    (distinct : context.Everywhere Json.Value.HasDistinctNames) (condition : Condition) :
    condition.holds context = condition.holds context' :=
  satisfies_eq_of_sameEntry (reordered.walk? distinct (Path.names condition.source))
    (fun _ found => Json.Value.everywhere_of_walk? distinct found) _ _

theorem Condition.allHold_reordered (reordered : Json.Reordered context context')
    (distinct : context.Everywhere Json.Value.HasDistinctNames) (conditions : List Condition) :
    allHold context conditions = allHold context' conditions := by
  induction conditions with
  | nil => rfl
  | cons condition rest ih => simp only [allHold, holds_reordered reordered distinct, ih]

end Conditions

namespace Profile

variable {first second : Profile} {event event' : Event}

theorem Distinct.evaluationContext (distinct : first.Distinct) (payload : event.Distinct) :
    (evaluationContext first event).Everywhere Json.Value.HasDistinctNames := by
  have names : ["event", "profile"].Nodup := by decide
  have parts : ["static", "behavioral", "scores", "tags"].Nodup := by decide
  have whole : (Json.Value.object [
      ("static", .object first.staticData),
      ("behavioral", .object first.behavioral),
      ("scores", .ofNumbers first.scores),
      ("tags", .strings first.tags)]).Everywhere Json.Value.HasDistinctNames := by
    refine .ofEntries parts ?_
    simp only [List.forall_mem_cons]
    exact ⟨distinct.staticData, distinct.behavioral,
      Json.Value.distinct_ofNumbers distinct.scoreNames,
      Json.Value.distinct_strings first.tags, by simp⟩
  refine .ofEntries names ?_
  simp only [List.forall_mem_cons]
  exact ⟨payload, whole, by simp⟩

theorem Reordered.evaluationContext (reordered : first.Reordered second)
    (payload : event.Reordered event') :
    Json.Reordered (evaluationContext first event) (evaluationContext second event') := by
  have scores : Json.Reordered (.ofNumbers first.scores) (.ofNumbers second.scores) :=
    .ofPerm (reordered.scores.map _)
  have tags : Json.Reordered (.strings first.tags) (.strings second.tags) :=
    reordered.tags ▸ .refl _
  refine .ofEntries (.cons ⟨rfl, payload.payload⟩ (.cons ⟨rfl, ?_⟩ .nil))
  exact .ofEntries (.cons ⟨rfl, reordered.staticData⟩ (.cons ⟨rfl, reordered.behavioral⟩
    (.cons ⟨rfl, scores⟩ (.cons ⟨rfl, tags⟩ .nil))))

theorem score_eq_of_perm (same : first.scores.Perm second.scores)
    (distinct : first.scores.names.Nodup) (name : String) :
    first.score name = second.score name := by
  rw [score, score, (Fields.perm_iff_get? distinct
    (Fields.nodup_names_of_perm distinct same)).mp same name]

theorem Reordered.get?_scores (reordered : first.Reordered second) (distinct : first.Distinct)
    (name : String) : first.scores.get? name = second.scores.get? name :=
  (Fields.perm_iff_get? distinct.scoreNames
    (Fields.nodup_names_of_perm distinct.scoreNames reordered.scores)).mp reordered.scores name

theorem Reordered.score_eq (reordered : first.Reordered second) (distinct : first.Distinct)
    (name : String) : first.score name = second.score name :=
  score_eq_of_perm reordered.scores distinct.scoreNames name

theorem Reordered.hasTag_eq (reordered : first.Reordered second) (tag : String) :
    first.hasTag tag = second.hasTag tag := by
  rw [hasTag, hasTag, reordered.tags]

theorem Reordered.writeScore (reordered : first.Reordered second) (distinct : first.Distinct)
    (name : String) (value : Number) :
    ({ first with scores := first.scores.set name value } : Profile).Reordered
      { second with scores := second.scores.set name value } := by
  have distinct' := Fields.nodup_names_of_perm distinct.scoreNames reordered.scores
  refine { reordered with scores := ?_ }
  refine (Fields.perm_iff_get? (Fields.nodup_names_set distinct.scoreNames _ _)
    (Fields.nodup_names_set distinct' _ _)).mpr fun other => ?_
  rw [Fields.get?_set, Fields.get?_set, reordered.get?_scores distinct]

theorem Reordered.writeTags (reordered : first.Reordered second)
    (write : List String → List String) :
    ({ first with tags := write first.tags } : Profile).Reordered
      { second with tags := write second.tags } :=
  { reordered with tags := congrArg write reordered.tags }

end Profile

namespace Effect

variable {first second : Profile}

theorem apply_reordered (reordered : first.Reordered second) (distinct : first.Distinct)
    (effect : Effect) :
    Outcome.Related (fun a b : Applied =>
        a.profile.Reordered b.profile ∧ a.description = b.description)
      (effect.apply first) (effect.apply second) := by
  unfold apply
  cases effect with
  | scoreDelta score delta =>
      cases score with
      | none => exact .returns ⟨reordered, rfl⟩
      | some score =>
          cases delta with
          | none => exact .returns ⟨reordered, rfl⟩
          | some delta =>
              simp only [reordered.score_eq distinct]
              split
              case isTrue => exact .returns ⟨reordered, rfl⟩
              case isFalse =>
                  cases (second.score score).add delta with
                  | error fault => exact .fails fault
                  | ok value =>
                      rw [Outcome.ok_bind, Outcome.ok_bind]
                      cases changeText score delta (second.score score) value with
                      | error fault => exact .fails fault
                      | ok text =>
                          exact .returns ⟨reordered.writeScore distinct score value, rfl⟩
  | addTag tag =>
      cases tag with
      | none => exact .returns ⟨reordered, rfl⟩
      | some tag =>
          simp only [reordered.hasTag_eq]
          split
          case isTrue => exact .returns ⟨reordered, rfl⟩
          case isFalse => exact .returns ⟨reordered.writeTags (· ++ [tag]), rfl⟩
  | removeTag tag =>
      cases tag with
      | none => exact .returns ⟨reordered, rfl⟩
      | some tag =>
          simp only [reordered.hasTag_eq]
          split
          case isTrue => exact .returns ⟨reordered, rfl⟩
          case isFalse => exact .returns ⟨reordered.writeTags (·.erase tag), rfl⟩

theorem applyAll_reordered (reordered : first.Reordered second) (distinct : first.Distinct)
    (effects : List Effect) :
    Outcome.Related (fun a b : Profile × List String => a.1.Reordered b.1 ∧ a.2 = b.2)
      (applyAll first effects) (applyAll second effects) := by
  induction effects generalizing first second with
  | nil => exact .returns ⟨reordered, rfl⟩
  | cons effect rest ih =>
      refine (effect.apply_reordered reordered distinct).bind ?_
      rintro applied applied' done ⟨middle, description⟩
      have distinct' : applied.profile.Distinct :=
        (Leads.step (apply_changes done) (.done _)).distinct distinct
      refine (ih middle distinct').bind ?_
      rintro ⟨final, texts⟩ ⟨final', _⟩ _ ⟨last, rfl⟩
      exact .returns ⟨last, by rw [description]⟩

end Effect

theorem Rule.turn_reordered {rule : Rule} {first second : Profile} {event event' : Event}
    (reordered : first.Reordered second) (distinct : first.Distinct)
    (same : event.Reordered event') (payload : event.Distinct) :
    Outcome.Related (Option.Rel fun a b : Firing =>
        a.profile.Reordered b.profile ∧ a.descriptions = b.descriptions)
      (rule.turn event first) (rule.turn event' second) := by
  unfold turn
  rw [Condition.allHold_reordered (reordered.evaluationContext same)
    (distinct.evaluationContext payload)]
  cases Condition.allHold (evaluationContext second event') rule.conditions with
  | error fault => exact .fails fault
  | ok met =>
      cases met with
      | false => exact .returns .none
      | true =>
          refine (Effect.applyAll_reordered reordered distinct rule.effects).bind ?_
          rintro ⟨final, texts⟩ ⟨final', texts'⟩ _ result
          exact .returns (.some result)

namespace Agenda

/-- The same turns, of events that are the same up to order. -/
def Reordered : Agenda → Agenda → Prop :=
  List.Forall₂ fun item item' => item.1.Reordered item'.1 ∧ item.2 = item'.2

theorem reordered_ofEvents (sorted : List Rule) {events events' : List Event}
    (batch : List.Forall₂ Event.Reordered events events') :
    Reordered (ofEvents sorted events) (ofEvents sorted events') := by
  refine List.rel_flatMap batch fun event event' same => ?_
  rw [ofEvent, ofEvent, same.kind, List.forall₂_map_left_iff, List.forall₂_map_right_iff]
  exact List.forall₂_same.mpr fun _ _ => ⟨same, rfl⟩

theorem run_reordered {agenda agenda' : Agenda} (turns : agenda.Reordered agenda')
    {first second : Profile} (reordered : first.Reordered second) (distinct : first.Distinct)
    (payloads : ∀ item ∈ agenda, item.1.Distinct) :
    Outcome.Related (fun a b : Profile × List TraceEntry =>
        a.1.Distinct ∧ a.1.Reordered b.1 ∧ a.2 = b.2)
      (run first agenda) (run second agenda') := by
  induction turns generalizing first second with
  | nil => exact .returns ⟨distinct, reordered, rfl⟩
  | @cons item item' rest rest' turn _ ih =>
      obtain ⟨event, rule⟩ := item
      obtain ⟨event', rule'⟩ := item'
      obtain ⟨same, rfl⟩ := turn
      rw [List.forall_mem_cons] at payloads
      refine (Rule.turn_reordered reordered distinct same payloads.1).bind ?_
      intro outcome outcome' taken result
      cases result with
      | none => exact ih reordered distinct payloads.2
      | @some firing firing' fired =>
          have distinct' : firing.profile.Distinct :=
            (Effect.applyAll_leads (Rule.turn_eq_some_iff.mp taken).2).distinct distinct
          refine (ih fired.1 distinct' payloads.2).bind ?_
          rintro ⟨final, trace⟩ ⟨final', _⟩ _ ⟨kept, last, rfl⟩
          exact .returns ⟨kept, last, by rw [Rule.entry, Rule.entry, fired.2]⟩

end Agenda

/-- The order of entries is not observable: evaluations of the same profile and the same
    events up to order fail with the same fault, or they fire the same rules with the same
    traces and end with the same tags and the same scores. -/
theorem evaluate_reordered (rules : List Rule) (now : Timestamp) {first second : Profile}
    {events events' : List Event} (distinct : first.Distinct)
    (payloads : ∀ event ∈ events, event.Distinct) (reordered : first.Reordered second)
    (batch : List.Forall₂ Event.Reordered events events') :
    Outcome.Related Evaluation.Reordered (evaluate rules first events now)
      (evaluate rules second events' now) := by
  have turns := Agenda.reordered_ofEvents (Rule.sortActive rules) batch
  have looked : ∀ item ∈ Agenda.ofEvents (Rule.sortActive rules) events, item.1.Distinct := by
    intro item member
    obtain ⟨event, listed, turn⟩ := List.mem_flatMap.mp member
    obtain ⟨rule, _, rfl⟩ := List.mem_map.mp turn
    exact payloads event listed
  rw [evaluate_eq_run, evaluate_eq_run]
  refine (Agenda.run_reordered turns reordered distinct looked).map ?_
  rintro ⟨final, trace⟩ ⟨final', trace'⟩ ⟨kept, last, told⟩
  exact {
    profile := { last with lastUpdated := rfl }
    trace := told
    scores := last.get?_scores kept }

namespace Nearby

def address : Fields Json.Value := [("city", .string "Pune"), ("pin", .int 411001)]

def item : Fields Json.Value := [("id", .string "loan-1"), ("rank", .int 2)]

def points : Fields Number := [("trust", 2), ("risk", 1)]

/-- Looks at a whole object and at an array with an object in it. -/
def rule : Rule :=
  { id := "nearby", name := "Nearby", status := .active, event := .marketplaceView
    conditions := [⟨"profile.static.address", "contains", some (.scalar (.text "Pune"))⟩,
      ⟨"event.viewed", "contains", some (.scalar (.text "loan"))⟩]
    effects := [.scoreDelta (some "reach") (some 1), .scoreDelta (some "trust") (some 5)] }

def customer (address : Fields Json.Value) (scores : Fields Number) : Profile :=
  { customerId := "C1", staticData := [("address", .object address)], scores := scores }

def view (item : Fields Json.Value) : Event :=
  ⟨.marketplaceView, [("viewed", .array [.object item])]⟩

/-- An address, a viewed item and the scores, each listed forwards and backwards. -/
theorem evaluate_reordered_nearby :
    (customer address points).Distinct ∧ (∀ event ∈ [view item], event.Distinct) ∧
    (customer address points).Reordered (customer address.reverse points.reverse) ∧
    List.Forall₂ Event.Reordered [view item] [view item.reverse] ∧
    Outcome.Related Evaluation.Reordered
      (evaluate [rule] (customer address points) [view item]
        (.midnight ⟨2026, 2, 5, by decide⟩ none))
      (evaluate [rule] (customer address.reverse points.reverse) [view item.reverse]
        (.midnight ⟨2026, 2, 5, by decide⟩ none)) := by
  have backwards (entries : Fields Json.Value) :
      Json.Reordered (.object entries) (.object entries.reverse) :=
    .ofPerm (List.reverse_perm entries).symm
  have distinct : (customer address points).Distinct := by
    refine ⟨by decide, ?_, ?_⟩ <;>
      simp [customer, address, Json.Value.HasDistinctNames, Fields.names, Json.Value.int]
  have payloads : ∀ event ∈ [view item], event.Distinct := by
    simp [view, item, Event.Distinct, Json.Value.HasDistinctNames, Fields.names, Json.Value.int]
  have reordered :
      (customer address points).Reordered (customer address.reverse points.reverse) :=
    { customerId := rfl
      staticData := .ofEntries (.cons ⟨rfl, backwards address⟩ .nil)
      behavioral := .refl _
      scores := (List.reverse_perm points).symm
      tags := rfl
      lastUpdated := rfl }
  have batch : List.Forall₂ Event.Reordered [view item] [view item.reverse] := by
    refine .cons ⟨rfl, .ofEntries (.cons ⟨rfl, ?_⟩ .nil)⟩ .nil
    exact .ofItems (.cons (backwards item) .nil)
  exact ⟨distinct, payloads, reordered, batch,
    evaluate_reordered _ _ distinct payloads reordered batch⟩

end Nearby

end NextOffer
