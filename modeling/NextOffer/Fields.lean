/-! # Named entries in order

A table keeps its entries in the order in which their names first appeared.
Writing to a name that is present replaces the value where it stands.
-/

namespace NextOffer

/-- Named entries in the order of their first appearance. An association list,
    because every answer shows this order. -/
abbrev Fields (α : Type u) := List (String × α)

namespace Fields

variable {α : Type u} {β : Type v}

def names (entries : Fields α) : List String := entries.map (·.1)

def get? : Fields α → String → Option α
  | [], _ => none
  | (other, value) :: rest, name => if other = name then some value else get? rest name

/-- Write a value: in place when the name is present, else at the end. -/
def set : Fields α → String → α → Fields α
  | [], name, value => [(name, value)]
  | (other, old) :: rest, name, value =>
      if other = name then (name, value) :: rest else (other, old) :: set rest name value

/-- A sequence of writes into an empty table: the last value of a name wins and
    stands where the name came first. -/
def ofWrites (writes : List (String × α)) : Fields α :=
  writes.foldl (fun entries write => entries.set write.1 write.2) []

def mapValues (f : α → β) (entries : Fields α) : Fields β :=
  entries.map fun entry => (entry.1, f entry.2)

theorem get?_set (entries : Fields α) (name other : String) (value : α) :
    (entries.set name value).get? other =
      if name = other then some value else entries.get? other := by
  induction entries with
  | nil => simp [set, get?]
  | cons entry rest ih =>
      by_cases same : entry.1 = name
      · by_cases h : name = other <;> simp [set, get?, same, h]
      · by_cases h : entry.1 = other
        · subst h; simp [set, get?, same, Ne.symm same]
        · simp [set, get?, same, h, ih]

theorem names_set (entries : Fields α) (name : String) (value : α) :
    (entries.set name value).names =
      if name ∈ entries.names then entries.names else entries.names ++ [name] := by
  induction entries with
  | nil => rfl
  | cons entry rest ih =>
      by_cases same : entry.1 = name
      · simp [set, names, same]
      · simp only [set, same, if_false, names, List.map_cons, List.mem_cons] at ih ⊢
        rw [ih]
        by_cases h : name ∈ List.map (·.1) rest <;> simp [h, Ne.symm same]

end Fields

end NextOffer
