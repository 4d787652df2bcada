import NextOffer.Path

/-! # Names in a path

Every dot of a path divides two names. A path that is put together with a dot has the names of
its parts, and a text is a name exactly when it has no dot.
-/

namespace NextOffer.Path

theorem names_ne_nil (path : String) : names path ≠ [] := by
  simp [names, List.splitOn_ne_nil]

theorem names_append (path rest : String) :
    names (path ++ "." ++ rest) = names path ++ names rest := by
  have whole : (path ++ "." ++ rest).toList = path.toList ++ '.' :: rest.toList := by simp
  rw [names, whole, List.splitOn_append_cons_self, List.map_append, ← names, ← names]

theorem names_of_dotless {name : String} (dotless : '.' ∉ name.toList) : names name = [name] := by
  rw [names, List.splitOn_eq_singleton dotless, List.map_singleton, String.ofList_toList]

theorem names_of_dotted {path : String} (dotted : '.' ∈ path.toList) :
    ∃ first second rest, names path = first :: second :: rest := by
  obtain ⟨front, back, divided⟩ := List.append_of_mem dotted
  have joined : path = String.ofList front ++ "." ++ String.ofList back := by
    rw [← String.toList_inj]
    simp [divided]
  rw [joined, names_append]
  cases left : names (String.ofList front) with
  | nil => exact absurd left (names_ne_nil _)
  | cons first more =>
      cases right : names (String.ofList back) with
      | nil => exact absurd right (names_ne_nil _)
      | cons second rest =>
          cases more with
          | nil => exact ⟨first, second, rest, rfl⟩
          | cons next more => exact ⟨first, next, more ++ second :: rest, rfl⟩

end NextOffer.Path
