import NextOffer.Batch
import NextOffer.Proofs.Path

/-! # Walks along paths

What a path leads to is told step by step, whatever the names are: each name is looked up in
what the names before it have led to, and the first one that is missing, null or asked of
something that is no object ends the walk without a value. A path that is put together leads
where its second part leads from where the first one has led.
-/

namespace NextOffer

namespace Json

/-- What is found when names are looked up one after another, if anything is. -/
inductive Finds : Value → List String → Option Value → Prop where
  | here {value : Value} : Finds value [] (some value)
  | enter {entries : Fields Value} {name : String} {next : Value} {rest : List String}
      {found : Option Value} (present : entries.get? name = some next) (valued : next ≠ .null)
      (later : Finds next rest found) : Finds (.object entries) (name :: rest) found
  | missing {entries : Fields Value} {name : String} {rest : List String}
      (absent : entries.get? name = none) : Finds (.object entries) (name :: rest) none
  | null {entries : Fields Value} {name : String} {rest : List String}
      (void : entries.get? name = some .null) : Finds (.object entries) (name :: rest) none
  | blocked {value : Value} {name : String} {rest : List String}
      (noObject : ∀ entries, value ≠ .object entries) : Finds value (name :: rest) none

namespace Value

variable {value : Value} {names : List String} {found : Option Value}

theorem step?_of_noObject (noObject : ∀ entries, value ≠ .object entries) (name : String) :
    value.step? name = none := by
  cases value with
  | object entries => exact absurd rfl (noObject entries)
  | null | bool _ | number _ | string _ | array _ => rfl

theorem step?_object_eq_some_iff {entries : Fields Value} {name : String} {next : Value} :
    step? (.object entries) name = some next ↔ entries.get? name = some next ∧ next ≠ .null := by
  simp only [step?, get?]
  split
  case h_1 void =>
      rw [void]
      constructor
      · intro found
        cases found
      · rintro ⟨same, valued⟩
        exact absurd (Option.some.inj same).symm valued
  case h_2 other =>
      constructor
      · intro present
        exact ⟨present, fun void => other (present.trans (congrArg some void))⟩
      · exact And.left

theorem walk?_of_finds (finds : Finds value names found) : value.walk? names = found := by
  induction finds with
  | here => rfl
  | enter present valued _ ih =>
      rw [walk?, step?_object_eq_some_iff.mpr ⟨present, valued⟩, Option.bind_some, ih]
  | @missing entries name rest absent | @null entries name rest absent =>
      have none : step? (.object entries) name = none := by
        simp [step?, get?, absent]
      rw [walk?, none, Option.bind_none]
  | blocked noObject => rw [walk?, step?_of_noObject noObject, Option.bind_none]

theorem finds_walk? (value : Value) (names : List String) :
    Finds value names (value.walk? names) := by
  induction names generalizing value with
  | nil => exact .here
  | cons name rest ih =>
      by_cases object : ∃ entries, value = .object entries
      · obtain ⟨entries, rfl⟩ := object
        cases step : step? (.object entries) name with
        | some next =>
            obtain ⟨present, valued⟩ := step?_object_eq_some_iff.mp step
            rw [walk?, step, Option.bind_some]
            exact .enter present valued (ih next)
        | none =>
            rw [walk?, step, Option.bind_none]
            cases present : Fields.get? entries name with
            | none => exact .missing present
            | some next =>
                by_cases void : next = .null
                · exact .null (void ▸ present)
                · rw [step?_object_eq_some_iff.mpr ⟨present, void⟩] at step
                  cases step
      · have noObject : ∀ entries, value ≠ .object entries :=
          fun entries same => object ⟨entries, same⟩
        rw [walk?, step?_of_noObject noObject, Option.bind_none]
        exact .blocked noObject

/-- Looking names up one after another is what a walk does. -/
theorem walk?_eq_iff : value.walk? names = found ↔ Finds value names found :=
  ⟨fun walked => walked ▸ finds_walk? value names, walk?_of_finds⟩

theorem walk?_append (value : Value) (front back : List String) :
    value.walk? (front ++ back) = (value.walk? front).bind (·.walk? back) := by
  induction front generalizing value with
  | nil => rfl
  | cons name rest ih =>
      rw [List.cons_append, walk?, walk?]
      cases value.step? name with
      | none => rfl
      | some next => exact ih next

end Value

end Json

namespace Path

open Json

theorem names_intercalate {segments : List String} (nonempty : segments ≠ [])
    (dotless : ∀ segment ∈ segments, '.' ∉ segment.toList) :
    names (".".intercalate segments) = segments := by
  have apart : ∀ cs ∈ segments.map String.toList, '.' ∉ cs := by simpa using dotless
  have divided := List.splitOn_intercalate '.' apart (by simpa using nonempty)
  have whole : (".".intercalate segments).toList =
      ['.'].intercalate (segments.map String.toList) := by
    simp [String.toList_intercalate]
  rw [names, whole, divided, List.map_map]
  simp

theorem resolve?_of_noObject {value : Value} (noObject : ∀ entries, value ≠ .object entries)
    (path : String) : resolve? value path = none := by
  obtain ⟨name, rest, shape⟩ := List.exists_cons_of_ne_nil (names_ne_nil path)
  rw [resolve?, shape, Value.walk?, Value.step?_of_noObject noObject, Option.bind_none]

theorem resolve?_append (context : Value) (path rest : String) :
    resolve? context (path ++ "." ++ rest) =
      (resolve? context path).bind fun value => resolve? value rest := by
  rw [resolve?, names_append, Value.walk?_append]
  rfl

/-- Paths lead on from where they have led, and names without dots are looked up one by one. -/
theorem resolve_composes (entries : Fields Value) :
    (∀ path rest : String, resolve (.object entries) (path ++ "." ++ rest) =
      match resolve (.object entries) path with
      | .ok (some (.object inner)) => resolve (.object inner) rest
      | _ => .ok none) ∧
    ∀ segments : List String, segments ≠ [] → (∀ segment ∈ segments, '.' ∉ segment.toList) →
      ∀ found, resolve (.object entries) (".".intercalate segments) = .ok found ↔
        Finds (.object entries) segments found := by
  constructor
  · intro path rest
    simp only [resolve, resolve?_append]
    cases led : resolve? (.object entries) path with
    | none => rfl
    | some value =>
        rw [Option.bind_some]
        split
        case h_1 inner same =>
            cases same
            rfl
        case h_2 other =>
            rw [resolve?_of_noObject fun inner same => other inner (by rw [same])]
  · intro segments nonempty dotless found
    rw [resolve, resolve?, names_intercalate nonempty dotless, Except.ok.injEq, Value.walk?_eq_iff]

/-- An entry without a name on the way, and a null behind which nothing is found. -/
def account : Fields Value :=
  [("profile", .object [("", .object [("total", .int 5)]), ("closed", .null)])]

theorem resolve_composes_account :
    ["profile", "", "total"] ≠ [] ∧
    (∀ segment ∈ ["profile", "", "total"], '.' ∉ segment.toList) ∧
    Finds (.object account) ["profile", "", "total"] (some (.int 5)) ∧
    resolve (.object account) "profile..total" = .ok (some (.int 5)) ∧
    resolve (.object account) "profile.closed" = .ok none ∧
    resolve (.object account) ("profile.closed" ++ "." ++ "reason") = .ok none := by
  have nonempty : ["profile", "", "total"] ≠ [] := List.cons_ne_nil _ _
  have dotless : ∀ segment ∈ ["profile", "", "total"], '.' ∉ segment.toList := by simp
  have finds : Finds (.object account) ["profile", "", "total"] (some (.int 5)) :=
    .enter rfl (by simp) (.enter rfl (by simp) (.enter rfl (by simp [Value.int]) .here))
  have void : resolve (.object account) "profile.closed" = .ok none := rfl
  obtain ⟨onwards, segments⟩ := resolve_composes account
  refine ⟨nonempty, dotless, finds, (segments _ nonempty dotless _).mpr finds, void, ?_⟩
  rw [onwards, void]

end Path

end NextOffer
