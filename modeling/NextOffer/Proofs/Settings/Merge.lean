import NextOffer.Proofs.Toml

/-! # Merged tables keep the right leaves

A name of a merged table has what the upper table has for it, laid over what the lower one has.
Followed down a path of names, a value that is no table comes from the upper table, or from the
lower one as long as the upper one has nothing there and nothing in the way. Names keep the
order of the lower table, and those that only the upper one has follow in theirs.
-/

namespace NextOffer

namespace Setting

variable {base top : Fields Setting} {name : String} {old setting value : Setting}

/-! ## One table over another -/

/-- A name has what the upper table has for it, laid over what the lower one has. -/
theorem get?_merge (distinct : top.names.Nodup) (name : String) :
    (merge base top).get? name =
      ((top.get? name).map (mergeOver (base.get? name))).or (base.get? name) := by
  induction top generalizing base with
  | nil => rfl
  | cons entry rest ih =>
      obtain ⟨fresh, later⟩ := List.nodup_cons.mp distinct
      rw [merge, ih later, Fields.get?_set, Fields.get?]
      by_cases same : entry.1 = name
      · subst same
        have absent : Fields.get? rest entry.1 = none := Fields.get?_eq_none_iff.mpr fresh
        simp [absent]
      · simp [same]

theorem mergeOver_eq_or_table (old : Option Setting) (value : Setting) :
    mergeOver old value = value ∨ ∃ entries, mergeOver old value = .table entries := by
  cases value with
  | plain _ | moment _ | list _ => exact .inl rfl
  | table entries =>
      unfold mergeOver
      split <;> exact .inr ⟨_, rfl⟩

theorem mergeOver_none (value : Setting) : mergeOver none value = value := by
  cases value <;> rfl

theorem names_merge (distinct : top.names.Nodup) :
    (merge base top).names = base.names ++ top.names.filter (· ∉ base.names) := by
  induction top generalizing base with
  | nil => simp [merge, Fields.names]
  | cons entry rest ih =>
      obtain ⟨fresh, later⟩ := List.nodup_cons.mp distinct
      have names : Fields.names (entry :: rest) = entry.1 :: Fields.names rest := rfl
      rw [merge, ih later, Fields.names_set, names]
      split
      case isTrue known => rw [List.filter_cons_of_neg (by simpa using known)]
      case isFalse new =>
          have others : (Fields.names rest).filter (· ∉ base.names ++ [entry.1]) =
              (Fields.names rest).filter (· ∉ base.names) := by
            apply List.filter_congr
            intro name member
            have other : name ≠ entry.1 := by
              rintro rfl
              exact fresh member
            simp [other]
          rw [others, List.filter_cons_of_pos (by simpa using new), List.append_assoc,
            List.singleton_append]

/-! ## Paths of names -/

def isTable : Setting → Bool
  | .table _ => true
  | _ => false

/-- What stands at the end of a path of names. Only tables have something below them. -/
def at? : Setting → List String → Option Setting
  | setting, [] => some setting
  | .table entries, name :: rest => (Fields.get? entries name).bind fun value => value.at? rest
  | _, _ :: _ => none

/-- At the end of the path stands a value that is no table. -/
structure HasLeaf (setting : Setting) (path : List String) (value : Setting) : Prop where
  found : setting.at? path = some value
  leaf : value.isTable = false

/-- At the end of the path stands nothing, and before its end nothing but tables. -/
structure Clears (setting : Setting) (path : List String) : Prop where
  nothing : setting.at? path = none
  tables : ∀ front back, path = front ++ back → back ≠ [] →
    ∀ value, setting.at? front = some value → value.isTable = true

theorem hasLeaf_cons_iff {path : List String} :
    (table base).HasLeaf (name :: path) value ↔
      ∃ inner, base.get? name = some inner ∧ inner.HasLeaf path value := by
  constructor
  · rintro ⟨found, leaf⟩
    obtain ⟨inner, there, below⟩ := Option.bind_eq_some_iff.mp found
    exact ⟨inner, there, below, leaf⟩
  · rintro ⟨inner, there, below, leaf⟩
    exact ⟨Option.bind_eq_some_iff.mpr ⟨inner, there, below⟩, leaf⟩

theorem not_clears_of_leaf (leaf : setting.isTable = false) (path : List String) :
    ¬ setting.Clears path := by
  rintro ⟨nothing, tables⟩
  cases path with
  | nil => cases nothing
  | cons name rest =>
      have table := tables [] (name :: rest) rfl (List.cons_ne_nil _ _) setting rfl
      rw [leaf] at table
      cases table

theorem not_clears_nil (setting : Setting) : ¬ setting.Clears [] := by
  rintro ⟨nothing, -⟩
  cases nothing

theorem clears_cons_iff {path : List String} :
    (table top).Clears (name :: path) ↔
      ∀ inner, top.get? name = some inner → inner.Clears path := by
  constructor
  · rintro ⟨nothing, tables⟩ inner there
    refine ⟨Option.bind_eq_none_iff.mp nothing inner there, ?_⟩
    rintro front back rfl more value found
    exact tables (name :: front) back rfl more value
      (Option.bind_eq_some_iff.mpr ⟨inner, there, found⟩)
  · intro clears
    refine ⟨Option.bind_eq_none_iff.mpr fun inner there => (clears inner there).nothing, ?_⟩
    intro front back whole more value found
    cases front with
    | nil =>
        cases found
        rfl
    | cons first front =>
        obtain ⟨rfl, rfl⟩ := List.cons.inj whole
        obtain ⟨inner, there, below⟩ := Option.bind_eq_some_iff.mp found
        exact (clears inner there).tables front back rfl more value below

/-! ## Leaves -/

theorem exists_of_isTable (table : setting.isTable = true) :
    ∃ entries, setting = .table entries := by
  cases setting with
  | plain _ | moment _ | list _ => cases table
  | table entries => exact ⟨entries, rfl⟩

theorem not_hasLeaf_table_nil (entries : Fields Setting) (value : Setting) :
    ¬ (table entries).HasLeaf [] value := by
  rintro ⟨found, leaf⟩
  cases found
  cases leaf

theorem eq_nil_of_leaf {path : List String} (leaf : setting.isTable = false)
    (ends : setting.HasLeaf path value) : path = [] := by
  cases path with
  | nil => rfl
  | cons name rest =>
      cases setting with
      | plain _ | moment _ | list _ => cases ends.found
      | table => cases leaf

theorem mergeOver_of_leaf (leaf : old.isTable = false ∨ setting.isTable = false) :
    mergeOver (some old) setting = setting := by
  cases setting with
  | plain _ | moment _ | list _ => rfl
  | table top =>
      cases old with
      | plain _ | moment _ | list _ => rfl
      | table base => rcases leaf with lower | upper <;> contradiction

theorem not_hasLeaf_of_leaf {path : List String}
    (leaf : old.isTable = false ∨ setting.isTable = false) (clears : setting.Clears path) :
    ¬ old.HasLeaf path value := by
  intro ends
  rcases leaf with lower | upper
  · obtain rfl := eq_nil_of_leaf lower ends
    exact not_clears_nil setting clears
  · exact not_clears_of_leaf upper path clears

/-- A leaf of a merged table is a leaf of the upper table, or one of the lower table where the
    upper one has nothing and has nothing but tables on the way. -/
theorem hasLeaf_merge_iff {path : List String} (distinct : Distinct (table top)) :
    (table (merge base top)).HasLeaf path value ↔
      (table top).HasLeaf path value ∨
        ((table base).HasLeaf path value ∧ (table top).Clears path) := by
  -- The path leads down both tables at once, until one of them ends.
  induction path generalizing base top with
  | nil => simp [not_hasLeaf_table_nil]
  | cons name rest ih =>
      simp only [hasLeaf_cons_iff, clears_cons_iff, get?_merge distinct.nodup]
      cases upper : top.get? name with
      | none => simp
      | some inner =>
          cases lower : base.get? name with
          | none => simp [mergeOver_none]
          | some old =>
              simp only [Option.map_some, Option.some_or, Option.some.injEq, exists_eq_left',
                forall_eq']
              by_cases tables : old.isTable = true ∧ inner.isTable = true
              · obtain ⟨base, rfl⟩ := exists_of_isTable tables.1
                obtain ⟨top, rfl⟩ := exists_of_isTable tables.2
                exact ih (distinct.get? upper)
              · have leaf : old.isTable = false ∨ inner.isTable = false := by
                  rwa [not_and_or, Bool.not_eq_true, Bool.not_eq_true] at tables
                rw [mergeOver_of_leaf leaf]
                constructor
                · exact .inl
                · rintro (ends | ⟨ends, clears⟩)
                  · exact ends
                  · exact absurd ends (not_hasLeaf_of_leaf leaf clears)

/-! ## Tables on both sides -/

theorem exists_of_at?_table {path : List String} {entries : Fields Setting}
    (found : setting.at? path = some (.table entries)) : ∃ outer, setting = .table outer := by
  cases path with
  | nil => exact ⟨entries, Option.some.inj found⟩
  | cons name rest =>
      cases setting with
      | plain _ | moment _ | list _ => cases found
      | table outer => exact ⟨outer, rfl⟩

theorem at?_merge_of_tables {path : List String} {lower upper : Fields Setting}
    (distinct : Distinct (table top)) (below : (table base).at? path = some (.table lower))
    (above : (table top).at? path = some (.table upper)) :
    (table (merge base top)).at? path = some (.table (merge lower upper)) ∧
      Distinct (table upper) := by
  induction path generalizing base top with
  | nil =>
      cases below
      cases above
      exact ⟨rfl, distinct⟩
  | cons name rest ih =>
      obtain ⟨old, there, below⟩ := Option.bind_eq_some_iff.mp below
      obtain ⟨inner, here, above⟩ := Option.bind_eq_some_iff.mp above
      obtain ⟨base', rfl⟩ := exists_of_at?_table below
      obtain ⟨top', rfl⟩ := exists_of_at?_table above
      have merged : (merge base top).get? name = some (.table (merge base' top')) := by
        rw [get?_merge distinct.nodup, here, there]
        rfl
      obtain ⟨found, inside⟩ := ih (distinct.get? here) below above
      exact ⟨Option.bind_eq_some_iff.mpr ⟨_, merged, found⟩, inside⟩

/-! ## A table over itself and over an empty one -/

theorem merge_of_known (known : ∀ entry ∈ top, base.get? entry.1 = some entry.2)
    (stays : ∀ entry ∈ top, mergeOver (some entry.2) entry.2 = entry.2) :
    merge base top = base := by
  induction top with
  | nil => rfl
  | cons entry rest ih =>
      obtain ⟨here, later⟩ := List.forall_mem_cons.mp known
      obtain ⟨first, others⟩ := List.forall_mem_cons.mp stays
      rw [merge, here, first, Fields.set_of_get? here]
      exact ih later others

theorem mergeOver_self (distinct : Distinct setting) :
    mergeOver (some setting) setting = setting := by
  induction distinct with
  | plain | moment | list => rfl
  | @table entries names _ ih =>
      apply congrArg table
      exact merge_of_known (fun entry member => (Fields.get?_eq_some_iff names).mpr member) ih

theorem merge_self (distinct : Distinct (table base)) : merge base base = base := by
  have same := mergeOver_self distinct
  exact table.inj same

theorem merge_of_new (distinct : (Fields.names (base ++ top)).Nodup) :
    merge base top = base ++ top := by
  induction top generalizing base with
  | nil => simp [merge]
  | cons entry rest ih =>
      have absent : entry.1 ∉ base.names := by
        intro present
        rw [Fields.names, List.map_append, List.nodup_append] at distinct
        exact distinct.2.2 _ present _ List.mem_cons_self rfl
      rw [merge, Fields.get?_eq_none_iff.mpr absent, mergeOver_none, Fields.set_of_not_mem absent,
        ih (by simpa using distinct), List.append_assoc]
      rfl

theorem nil_merge (distinct : Distinct (table top)) : merge [] top = top :=
  merge_of_new distinct.nodup

/-! ## What a merged table has -/

/-- A table that is made of an upper table over a lower one. -/
structure Combines (lower upper merged : Fields Setting) : Prop where
  /-- Its leaves are those of the upper table, and those of the lower table where the upper one
      has nothing and has nothing but tables on the way. -/
  leaves : ∀ path value, (table merged).HasLeaf path value ↔
    (table upper).HasLeaf path value ∨
      ((table lower).HasLeaf path value ∧ (table upper).Clears path)
  /-- Wherever both have a table, the names of the lower one come first in their order, and then
      those that only the upper one has in theirs. -/
  order : ∀ path (below above : Fields Setting), (table lower).at? path = some (.table below) →
    (table upper).at? path = some (.table above) →
    ∃ inner : Fields Setting, (table merged).at? path = some (.table inner) ∧
      inner.names = below.names ++ above.names.filter (· ∉ below.names)

/-- Merging two tables keeps every leaf of the upper one and of the lower one exactly those that
    are not overridden; and a table over itself, over an empty one or under an empty one stays
    as it is. -/
theorem merge_combines (lower upper : Fields Setting) (below : Distinct (table lower))
    (above : Distinct (table upper)) :
    Combines lower upper (merge lower upper) ∧
      merge lower lower = lower ∧ merge lower [] = lower ∧ merge [] lower = lower := by
  refine ⟨⟨fun path value => hasLeaf_merge_iff above, ?_⟩, merge_self below, rfl,
    nil_merge below⟩
  intro path base top there here
  obtain ⟨found, distinct⟩ := at?_merge_of_tables above there here
  exact ⟨merge base top, found, names_merge distinct.nodup⟩

def shipped : Fields Setting := [
  ("title", text "Next offer"),
  ("data", .table [("seed_dir", text "seed"), ("output", .table [("csv", text "on")])]),
  ("debug", text "off")]

/-- A table in the place of a value, a value in the place of a table, and new names at both
    depths. -/
def adapted : Fields Setting := [
  ("debug", .table []),
  ("data", .table [("rules_file", text "r.json"), ("output", text "none")]),
  ("extra", .table [("note", text "x")])]

def combined : Fields Setting := [
  ("title", text "Next offer"),
  ("data", .table [("seed_dir", text "seed"), ("output", text "none"),
    ("rules_file", text "r.json")]),
  ("debug", .table []),
  ("extra", .table [("note", text "x")])]

theorem distinct_shipped : Distinct (table shipped) := by
  refine .table (by decide) ?_
  simp only [shipped, List.forall_mem_cons]
  refine ⟨.plain _, .table (by decide) ?_, .plain _, List.forall_mem_nil _⟩
  simp only [List.forall_mem_cons]
  exact ⟨.plain _, .table (by decide) (List.forall_mem_singleton.mpr (.plain _)),
    List.forall_mem_nil _⟩

theorem distinct_adapted : Distinct (table adapted) := by
  refine .table (by decide) ?_
  simp only [adapted, List.forall_mem_cons]
  refine ⟨.nil, .table (by decide) ?_, .table (by decide) ?_, List.forall_mem_nil _⟩
  · simp only [List.forall_mem_cons]
    exact ⟨.plain _, .plain _, List.forall_mem_nil _⟩
  · exact List.forall_mem_singleton.mpr (.plain _)

/-- What is overridden is gone at every depth, and nothing else is. -/
theorem merge_combines_adapted :
    Distinct (table shipped) ∧ Distinct (table adapted) ∧ merge shipped adapted = combined ∧
      Combines shipped adapted combined ∧ merge shipped shipped = shipped ∧
      merge shipped [] = shipped ∧ merge [] shipped = shipped :=
  ⟨distinct_shipped, distinct_adapted, rfl,
    merge_combines shipped adapted distinct_shipped distinct_adapted⟩

end Setting

end NextOffer
