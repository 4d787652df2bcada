import NextOffer.Condition.Comparison
import NextOffer.Proofs.LetterCase

/-! # Texts that contain a part of theirs

The operator for containment puts both texts into lower case before it looks for one in the
other. A part of a text is found at its place when its capital sigmas are final there exactly
where they are final in the part by itself. So a part is found in every text that it is a part
of exactly when none of its sigmas is exposed.
-/

namespace NextOffer

open Text

/-- In lower case the part stands in the text at a place where it does not stand itself. -/
def StandsElsewhere (part text : List Char) : Prop :=
  ∃ front back, lower text = front ++ lower part ++ back ∧
    ∀ before after, text = before ++ part ++ after → front ≠ lowerWithin [] before (part ++ after)

theorem infix_lower_iff {part text : List Char} :
    lower part <:+: lower text ↔
      (∃ before after, text = before ++ part ++ after ∧ KeepsForms before part after) ∨
        StandsElsewhere part text := by
  constructor
  · rintro ⟨front, back, found⟩
    by_cases here : ∃ before after, text = before ++ part ++ after ∧
        front = lowerWithin [] before (part ++ after)
    · obtain ⟨before, after, rfl, rfl⟩ := here
      rw [lower_part, List.append_assoc, List.append_assoc, List.append_cancel_left_eq] at found
      have same : lower part = lowerWithin before part after := by
        refine List.append_inj_left found ?_
        rw [← lowerWithin_eq_lower]
        exact length_lowerWithin
      exact .inl ⟨before, after, rfl, keepsForms_iff.mpr same.symm⟩
    · refine .inr ⟨front, back, found.symm, fun before after split same => ?_⟩
      exact here ⟨before, after, split, same⟩
  · rintro (⟨before, after, rfl, keeps⟩ | ⟨front, back, found, -⟩)
    · rw [lower_part, keepsForms_iff.mp keeps]
      exact List.infix_append _ _ _
    · rw [found]
      exact List.infix_append _ _ _

namespace Condition

theorem satisfies_contains_iff {text part : String} :
    satisfies (some (.string text)) "contains" (.string part) = .ok true ↔
      lower part.toList <:+: lower text.toList := by
  have asked : satisfies (some (.string text)) "contains" (.string part) =
      .ok (occursIn (lower part.toList) (lower text.toList)) := rfl
  rw [asked, Except.ok.injEq, occursIn_iff_infix]

/-- A text contains a part of it exactly when the part keeps the forms of its sigmas at one of
    its places, or is found elsewhere in lower case. All texts with the part contain it exactly
    when none of its sigmas is exposed. -/
theorem contains_part_iff (text part : String) :
    (satisfies (some (.string text)) "contains" (.string part) = .ok true ↔
      (∃ before after, text.toList = before ++ part.toList ++ after ∧
        KeepsForms before part.toList after) ∨
      StandsElsewhere part.toList text.toList) ∧
    ((∀ whole : String, part.toList <:+: whole.toList →
        satisfies (some (.string whole)) "contains" (.string part) = .ok true) ↔
      ¬ Exposed part.toList) := by
  refine ⟨satisfies_contains_iff.trans infix_lower_iff, ?_⟩
  constructor
  · intro found exposed
    obtain ⟨before, after, hidden⟩ := exists_hidden_of_exposed exposed
    have inside := found (String.ofList (before ++ part.toList ++ after)) (by simp)
    rw [satisfies_contains_iff, String.toList_ofList] at inside
    exact hidden inside
  · rintro sheltered whole ⟨before, after, split⟩
    rw [satisfies_contains_iff, infix_lower_iff]
    exact .inl ⟨before, after, split.symm, keepsForms_of_not_exposed sheltered before after⟩

/-- The sigma at the end of a word keeps its form before a blank. -/
theorem contains_part_before_blank :
    "ΟΔΟΣ".toList <:+: "ΟΔΟΣ ΕΡΜΟΥ".toList ∧
      satisfies (some (.string "ΟΔΟΣ ΕΡΜΟΥ")) "contains" (.string "ΟΔΟΣ") = .ok true := by
  have keeps : KeepsForms [] "ΟΔΟΣ".toList " ΕΡΜΟΥ".toList :=
    keepsForms_iff.mpr (by decide +kernel)
  exact ⟨⟨[], " ΕΡΜΟΥ".toList, by decide⟩,
    (contains_part_iff _ _).1.mpr (.inl ⟨[], " ΕΡΜΟΥ".toList, by decide, keeps⟩)⟩

/-- The word goes on, and its sigma has another form than by itself. -/
theorem not_contains_part_of_word :
    "ΟΔΟΣ".toList <:+: "ΟΔΟΣΗΜΑ".toList ∧
      satisfies (some (.string "ΟΔΟΣΗΜΑ")) "contains" (.string "ΟΔΟΣ") = .ok false :=
  ⟨⟨[], "ΗΜΑ".toList, by decide⟩, by decide +kernel⟩

end Condition

end NextOffer
