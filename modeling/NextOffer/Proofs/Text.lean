import Mathlib.Data.List.Infix
import NextOffer.Text.Columns
import NextOffer.Text.LetterCase

/-! # Joined texts in lower case

Lower case looks at the letters around a capital sigma, and past accents and the like. It does
not look past a comma, so that texts joined by commas are put into lower case one by one, and
each of them is found in the whole.
-/

namespace NextOffer.Text

theorem occursIn_iff_infix {part text : List Char} :
    occursIn part text = true ↔ part <:+: text := by
  induction text with
  | nil => simp [occursIn]
  | cons c rest ih =>
      rw [occursIn, Bool.or_eq_true, ih, List.isPrefixOf_iff_prefix, List.infix_cons_iff]

theorem infix_intercalate {part : List Char} {parts : List (List Char)} (separator : List Char)
    (member : part ∈ parts) : part <:+: separator.intercalate parts := by
  induction parts with
  | nil => cases member
  | cons first rest ih =>
      cases rest with
      | nil =>
          obtain rfl := List.mem_singleton.mp member
          simp
      | cons second more =>
          rw [List.intercalate_cons_cons]
          rcases List.mem_cons.mp member with rfl | later
          · exact (List.prefix_append _ _).isInfix.trans (List.prefix_append _ _).isInfix
          · exact (ih later).trans (List.suffix_append _ _).isInfix

/-- No letter is looked for past the character. -/
structure Separates (c : Char) : Prop where
  stops : isCaseIgnorable c = false
  uncased : isCased c = false

theorem separates_comma : Separates ',' := ⟨by decide +kernel, by decide⟩

variable {separator : Char}

theorem Separates.meetsCased (separates : Separates separator) (cs rest : List Char) :
    meetsCased (cs ++ separator :: rest) = Text.meetsCased cs := by
  induction cs with
  | nil => simp [Text.meetsCased, separates.stops, separates.uncased]
  | cons c more ih =>
      cases ignored : isCaseIgnorable c with
      | true => simpa [Text.meetsCased, ignored] using ih
      | false => simp [Text.meetsCased, ignored]

theorem Separates.lowerFrom_before (separates : Separates separator)
    (front before text : List Char) :
    lowerFrom (front ++ separator :: before) text = lowerFrom front text := by
  induction text generalizing front with
  | nil => rfl
  | cons c rest ih =>
      have first : lowerAt (front ++ separator :: before) c rest = lowerAt front c rest := by
        simp only [lowerAt, separates.meetsCased]
      rw [lowerFrom, lowerFrom, first, ← List.cons_append, ih]

theorem Separates.lowerFrom_append (separates : Separates separator)
    (before text after : List Char) :
    lowerFrom before (text ++ separator :: after) =
      lowerFrom before text ++ lowerFrom (text.reverse ++ before) (separator :: after) := by
  induction text generalizing before with
  | nil => rfl
  | cons c rest ih =>
      have first : lowerAt before c (rest ++ separator :: after) = lowerAt before c rest := by
        simp only [lowerAt, separates.meetsCased]
      rw [List.cons_append, lowerFrom, lowerFrom, first, ih, List.append_assoc, List.reverse_cons,
        List.append_assoc]
      rfl

/-- A comma divides a text into parts that have no influence on each other. -/
theorem lower_append_comma (text rest : List Char) :
    lower (text ++ ',' :: rest) = lower text ++ ',' :: lower rest := by
  have comma : lowerAt (text.reverse ++ []) ',' rest = [','] := by
    rw [lowerAt, if_neg (by decide), if_neg (by decide)]
    decide
  have tail := separates_comma.lowerFrom_before [] (text.reverse ++ []) rest
  rw [lower, separates_comma.lowerFrom_append, lowerFrom, comma]
  exact congrArg (lowerFrom [] text ++ ',' :: ·) tail

theorem lower_intercalate (texts : List (List Char)) :
    lower ([','].intercalate texts) = [','].intercalate (texts.map lower) := by
  induction texts with
  | nil => rfl
  | cons first rest ih =>
      cases rest with
      | nil => simp
      | cons second more =>
          rw [List.map_cons] at ih
          rw [List.map_cons, List.map_cons, List.intercalate_cons_cons,
            List.intercalate_cons_cons, ← ih]
          simp only [List.append_assoc, List.singleton_append, lower_append_comma]

end NextOffer.Text
