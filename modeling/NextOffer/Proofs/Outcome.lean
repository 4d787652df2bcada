import Mathlib.Data.List.Perm.Basic

/-! # Steps that may fail

A computation that may fail is a sequence of steps: it has a result when each step has one,
and it fails with the first step that does. These two readings of a sequence let a proof
peel off one step at a time. Two computations that take the same steps from related inputs
are compared step by step in the same way.
-/

namespace NextOffer.Outcome

variable {ε : Type u} {α β : Type v}

@[simp] theorem pure_eq (a : α) : (pure a : Except ε α) = .ok a := rfl

@[simp] theorem ok_bind (a : α) (f : α → Except ε β) : (Except.ok a >>= f) = f a := rfl

@[simp] theorem error_bind (fault : ε) (f : α → Except ε β) :
    ((Except.error fault : Except ε α) >>= f) = .error fault := rfl

theorem bind_eq_ok_iff {x : Except ε α} {f : α → Except ε β} {b : β} :
    (x >>= f) = .ok b ↔ ∃ a, x = .ok a ∧ f a = .ok b := by
  cases x <;> simp

theorem bind_eq_error_iff {x : Except ε α} {f : α → Except ε β} {fault : ε} :
    (x >>= f) = .error fault ↔ x = .error fault ∨ ∃ a, x = .ok a ∧ f a = .error fault := by
  cases x <;> simp

theorem mapError_eq_ok_iff {ε' : Type u} {x : Except ε α} {f : ε → ε'} {a : α} :
    x.mapError f = .ok a ↔ x = .ok a := by
  cases x <;> simp [Except.mapError]

theorem mapM_eq_ok_iff {f : α → Except ε β} {items : List α} {results : List β} :
    items.mapM f = .ok results ↔
      List.Forall₂ (fun item found => f item = .ok found) items results := by
  induction items generalizing results with
  | nil => cases results <;> simp
  | cons item rest ih =>
      rw [List.mapM_cons, bind_eq_ok_iff]
      constructor
      · rintro ⟨found, first, others⟩
        obtain ⟨later, reached, same⟩ := bind_eq_ok_iff.mp others
        cases same
        exact .cons first (ih.mp reached)
      · rintro (_ | ⟨first, later⟩)
        exact ⟨_, first, by simp [ih.mpr later]⟩

/-- A traversal of items that give what `made` says whenever they are good gives all of that
    whenever all are good. -/
theorem mapM_eq_ok_iff_map {f : α → Except ε β} {good : α → Prop} {made : α → β}
    (each : ∀ item result, f item = .ok result ↔ good item ∧ result = made item)
    {items : List α} {results : List β} :
    items.mapM f = .ok results ↔ (∀ item ∈ items, good item) ∧ results = items.map made := by
  simp only [mapM_eq_ok_iff, each]
  induction items generalizing results with
  | nil => cases results <;> simp
  | cons item rest ih => cases results <;> simp [ih, and_assoc, and_left_comm]

theorem mapM_returns_iff {f : α → Except ε β} {items : List α} :
    (∃ results, items.mapM f = .ok results) ↔ ∀ item ∈ items, ∃ found, f item = .ok found := by
  induction items with
  | nil => simp
  | cons item rest ih =>
      rw [List.mapM_cons, List.forall_mem_cons, ← ih]
      cases first : f item with
      | error fault => simp
      | ok found => cases later : rest.mapM f <;> simp

theorem exists_of_mapM_eq_error {f : α → Except ε β} {items : List α} {fault : ε}
    (failed : items.mapM f = .error fault) : ∃ item ∈ items, f item = .error fault := by
  induction items with
  | nil => cases failed
  | cons item rest ih =>
      rw [List.mapM_cons] at failed
      obtain first | ⟨found, -, later⟩ := bind_eq_error_iff.mp failed
      · exact ⟨item, List.mem_cons_self, first⟩
      · obtain again | ⟨_, _, impossible⟩ := bind_eq_error_iff.mp later
        · obtain ⟨item, member, failed⟩ := ih again
          exact ⟨item, List.mem_cons_of_mem _ member, failed⟩
        · cases impossible

/-- Both computations fail, with the same fault, or both return, with related results. -/
inductive Related (related : α → β → Prop) : Except ε α → Except ε β → Prop where
  | fails (fault) : Related related (.error fault) (.error fault)
  | returns {a b} (results : related a b) : Related related (.ok a) (.ok b)

namespace Related

variable {γ δ : Type v} {related : α → β → Prop} {related' : γ → δ → Prop}
  {x : Except ε α} {y : Except ε β}

theorem bind {f : α → Except ε γ} {g : β → Except ε δ} (first : Related related x y)
    (next : ∀ a b, x = .ok a → related a b → Related related' (f a) (g b)) :
    Related related' (x >>= f) (y >>= g) := by
  cases first with
  | fails fault => exact .fails fault
  | returns results => exact next _ _ rfl results

theorem map {f : α → γ} {g : β → δ} (first : Related related x y)
    (next : ∀ a b, related a b → related' (f a) (g b)) :
    Related related' (x.map f) (y.map g) := by
  cases first with
  | fails fault => exact .fails fault
  | returns results => exact .returns (next _ _ results)

theorem map_eq {f : α → γ} {g : β → γ} (first : Related related x y)
    (same : ∀ a b, x = .ok a → related a b → f a = g b) : x.map f = y.map g := by
  cases first with
  | fails fault => rfl
  | returns results => exact congrArg Except.ok (same _ _ rfl results)

theorem mapM {f : α → Except ε γ} {g : β → Except ε δ} {related : α → β → Prop}
    {items : List α} {others : List β} (lined : List.Forall₂ related items others)
    (step : ∀ a b, related a b → Related related' (f a) (g b)) :
    Related (List.Forall₂ related') (items.mapM f) (others.mapM g) := by
  induction lined with
  | nil => exact .returns .nil
  | cons first _ ih =>
      rw [List.mapM_cons, List.mapM_cons]
      refine (step _ _ first).bind fun a b _ result => ?_
      exact ih.bind fun rest rest' _ results => .returns (.cons result results)

theorem mapM_perm {f : α → Except ε γ} {only : ε}
    (one : ∀ item fault, f item = .error fault → fault = only) {items others : List α}
    (same : items.Perm others) : Related List.Perm (items.mapM f) (others.mapM f) := by
  cases first : items.mapM f with
  | ok results =>
      obtain ⟨results', lined, moved⟩ :=
        List.perm_comp_forall₂ same.symm (mapM_eq_ok_iff.mp first)
      rw [mapM_eq_ok_iff.mpr lined]
      exact .returns moved.symm
  | error fault =>
      obtain ⟨item, member, failed⟩ := exists_of_mapM_eq_error first
      cases second : others.mapM f with
      | ok results =>
          obtain ⟨found, returned⟩ :=
            mapM_returns_iff.mp ⟨results, second⟩ item (same.mem_iff.mp member)
          rw [failed] at returned
          cases returned
      | error fault' =>
          obtain ⟨item', _, failed'⟩ := exists_of_mapM_eq_error second
          rw [one item fault failed, one item' fault' failed']
          exact .fails only

end Related

end NextOffer.Outcome
