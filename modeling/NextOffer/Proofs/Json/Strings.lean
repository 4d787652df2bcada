import Mathlib.Tactic.SplitIfs
import NextOffer.Json.Parser
import NextOffer.Json.Printer
import NextOffer.Proofs.Outcome

/-! # Strings are read back

Whether wide characters are escaped or not, the text of a character is read as that
character: plain characters stand for themselves, the others are behind a backslash, as a
letter, as a code unit, or as a pair of code units. By induction on its characters a string is
read as itself.
-/

namespace NextOffer

namespace Text

theorem hex_one {n : Nat} (small : n < 16) : hex 1 n = [Nat.digitChar n] := by
  simp [hex, Nat.toDigits_of_lt_base small]

theorem hex_succ (width n : Nat) :
    hex (width + 2) n = hex (width + 1) (n / 16) ++ [Nat.digitChar (n % 16)] := by
  by_cases small : n < 16
  · simp [hex, Nat.toDigits_of_lt_base small, Nat.div_eq_of_lt small, Nat.mod_eq_of_lt small,
      List.replicate_succ']
  · simp [hex, Nat.toDigits_of_base_le (by decide) (Nat.le_of_not_lt small)]

end Text

namespace Json

open Outcome

/-! ## Code units -/

theorem hexDigit?_digitChar {n : Nat} (small : n < 16) :
    hexDigit? (Nat.digitChar n) = some n := by
  have all : ∀ digit : Fin 16, hexDigit? (Nat.digitChar digit.val) = some digit.val := by decide
  exact all ⟨n, small⟩

theorem hexUnit?_hex {unit : Nat} (small : unit < 0x10000) (next : Char) (rest : List Char) :
    hexUnit? (Text.hex 4 unit ++ next :: rest) = some (unit, next :: rest) := by
  rw [Text.hex_succ, Text.hex_succ, Text.hex_succ, Text.hex_one (by omega)]
  simp only [List.cons_append, List.nil_append, hexUnit?,
    hexDigit?_digitChar (show unit / 16 / 16 / 16 < 16 by omega),
    hexDigit?_digitChar (Nat.mod_lt _ (show 0 < 16 by decide)), Option.bind_eq_bind,
    Option.bind_some, Option.pure_def, Option.some.injEq, Prod.mk.injEq, and_true]
  omega

theorem toNat_lt (c : Char) : c.toNat < 0x110000 := by
  rcases c.valid with low | high
  · exact Nat.lt_trans low (by decide)
  · exact high.2

theorem isHighUnit_toNat (c : Char) : isHighUnit c.toNat = false := by
  have outside : c.toNat < 0xd800 ∨ 0xdfff < c.toNat := c.valid.imp_right And.left
  simp only [isHighUnit, Bool.and_eq_false_iff, decide_eq_false_iff_not]
  omega

theorem isLowUnit_toNat (c : Char) : isLowUnit c.toNat = false := by
  have outside : c.toNat < 0xd800 ∨ 0xdfff < c.toNat := c.valid.imp_right And.left
  simp only [isLowUnit, Bool.and_eq_false_iff, decide_eq_false_iff_not]
  omega

theorem unicodeEscape_of_narrow {c : Char} (narrow : c.toNat < 0x10000) (next : Char)
    (rest : List Char) :
    unicodeEscape (Text.hex 4 c.toNat ++ next :: rest) = .ok (c, next :: rest) := by
  simp [unicodeEscape, hexUnit?_hex narrow, isHighUnit_toNat, isLowUnit_toNat, Char.ofNat_toNat]

theorem unicodeEscape_of_pair {high low : Nat} (isHigh : isHighUnit high = true)
    (isLow : isLowUnit low = true) (next : Char) (rest : List Char) :
    unicodeEscape (Text.hex 4 high ++ (unitEscape low ++ next :: rest)) =
      .ok (Char.ofNat (0x10000 + (high - 0xd800) * 0x400 + (low - 0xdc00)), next :: rest) := by
  have highBound : high < 0x10000 := by
    simp only [isHighUnit, Bool.and_eq_true, decide_eq_true_eq] at isHigh
    omega
  have lowBound : low < 0x10000 := by
    simp only [isLowUnit, Bool.and_eq_true, decide_eq_true_eq] at isLow
    omega
  simp only [unicodeEscape, unitEscape, List.cons_append, hexUnit?_hex highBound, isHigh, if_true,
    lowUnit?, hexUnit?_hex lowBound, Option.filter_some, isLow]

/-- A character beyond the first sixteen bits is read back from its pair. -/
theorem unicodeEscape_of_wide {c : Char} (wide : 0x10000 ≤ c.toNat) (next : Char)
    (rest : List Char) :
    unicodeEscape (Text.hex 4 (0xd800 + (c.toNat - 0x10000) / 0x400) ++
        (unitEscape (0xdc00 + (c.toNat - 0x10000) % 0x400) ++ next :: rest)) =
      .ok (c, next :: rest) := by
  obtain ⟨beyond, code⟩ : ∃ beyond, c.toNat = 0x10000 + beyond :=
    ⟨_, (Nat.add_sub_cancel' wide).symm⟩
  have bound := toNat_lt c
  have isHigh : isHighUnit (0xd800 + beyond / 0x400) = true := by
    simp only [isHighUnit, Bool.and_eq_true, decide_eq_true_eq]
    omega
  have isLow : isLowUnit (0xdc00 + beyond % 0x400) = true := by
    simp only [isLowUnit, Bool.and_eq_true, decide_eq_true_eq]
    omega
  rw [code, Nat.add_sub_cancel_left, unicodeEscape_of_pair isHigh isLow, Nat.add_sub_cancel_left,
    Nat.add_sub_cancel_left, Nat.add_assoc, Nat.div_add_mod', ← code, Char.ofNat_toNat]

/-! ## Characters -/

section Characters

variable {opened after chars rest text : List Char} {fuel : Nat} {c letter next : Char}

theorem stringBody_of_plain (plain : isPlain c = true)
    (read : stringBody opened fuel after = .ok (chars, rest)) :
    stringBody opened fuel (c :: after) = .ok (c :: chars, rest) := by
  cases fuel with
  | zero => cases read
  | succ fuel =>
      rw [stringBody] at read ⊢
      simp only [List.takeWhile_cons, List.dropWhile_cons, plain, if_true]
      cases stop : after.dropWhile isPlain with
      | nil => simp [stop] at read
      | cons first others =>
          simp only [stop] at read ⊢
          split_ifs at read ⊢ with quote slash
          · cases read
            rfl
          cases others with
          | nil => cases read
          | cons letter others =>
              dsimp only at read ⊢
              split_ifs at read ⊢
              · obtain ⟨found, escape, read⟩ := bind_eq_ok_iff.mp read
                obtain ⟨more, later, same⟩ := bind_eq_ok_iff.mp read
                cases same
                simp [escape, later]
              · cases simple : simpleEscape? letter with
                | none => simp [simple] at read
                | some char =>
                    simp only [simple, ok_bind] at read
                    obtain ⟨more, later, same⟩ := bind_eq_ok_iff.mp read
                    cases same
                    simp [later]

theorem stringBody_of_simple (simple : simpleEscape? letter = some c)
    (read : stringBody opened fuel after = .ok (chars, rest)) :
    stringBody opened (fuel + 1) ('\\' :: letter :: after) = .ok (c :: chars, rest) := by
  have noUnit : letter ≠ 'u' := by
    rintro rfl
    simp [simpleEscape?] at simple
  simp [stringBody, isPlain, noUnit, simple, read]

theorem stringBody_of_unicode (unit : unicodeEscape text = .ok (c, after))
    (read : stringBody opened fuel after = .ok (chars, rest)) :
    stringBody opened (fuel + 1) ('\\' :: 'u' :: text) = .ok (c :: chars, rest) := by
  simp [stringBody, isPlain, unit, read]

theorem stringBody_unitEscape (narrow : c.toNat < 0x10000)
    (read : stringBody opened fuel (next :: after) = .ok (chars, rest)) :
    stringBody opened (fuel + 1) (unitEscape c.toNat ++ next :: after) = .ok (c :: chars, rest) :=
  stringBody_of_unicode (unicodeEscape_of_narrow narrow _ _) read

theorem stringBody_wideEscape
    (read : stringBody opened fuel (next :: after) = .ok (chars, rest)) :
    stringBody opened (fuel + 1) (wideEscape c ++ next :: after) = .ok (c :: chars, rest) := by
  unfold wideEscape
  split
  case isTrue narrow => exact stringBody_unitEscape narrow read
  case isFalse wide =>
      rw [List.append_assoc, unitEscape, List.cons_append, List.cons_append]
      exact stringBody_of_unicode (unicodeEscape_of_wide (Nat.le_of_not_lt wide) _ _) read

/-- The text of a character is read as that character. A plain one leaves the fuel as it
    was, so that the text behind it has to be read with that much, too. -/
theorem stringBody_charText (escapeWide : Bool)
    (read : ∀ more ≥ fuel, stringBody opened more (next :: after) = .ok (chars, rest)) :
    stringBody opened (fuel + 1) (charText escapeWide c ++ next :: after) =
      .ok (c :: chars, rest) := by
  have readLess := read fuel (Nat.le_refl _)
  unfold charText
  split
  case isTrue quote =>
      exact quote ▸ stringBody_of_simple (by simp [simpleEscape?, quote]) readLess
  split
  case isTrue slash => exact stringBody_of_simple (by simp [simpleEscape?, slash]) readLess
  split
  case isTrue feed => exact feed ▸ stringBody_of_simple rfl readLess
  split
  case isTrue back => exact back ▸ stringBody_of_simple rfl readLess
  split
  case isTrue tab => exact tab ▸ stringBody_of_simple rfl readLess
  split
  case isTrue backspace => exact backspace ▸ stringBody_of_simple rfl readLess
  split
  case isTrue page => exact page ▸ stringBody_of_simple rfl readLess
  split
  case isTrue control => exact stringBody_unitEscape (by omega) readLess
  split
  case isTrue => exact stringBody_wideEscape readLess
  case isFalse quote slash _ _ _ _ _ control _ =>
      have plain : isPlain c = true := by
        simp only [isPlain, Bool.and_eq_true, bne_iff_ne, decide_eq_true_eq]
        exact ⟨⟨quote, slash⟩, Nat.le_of_not_lt control⟩
      exact stringBody_of_plain plain (read _ (Nat.le_succ _))

end Characters

/-! ## Strings -/

theorem stringBody_flatMap_charText (opened : List Char) (escapeWide : Bool)
    (chars rest : List Char) {fuel : Nat} (enough : chars.length < fuel) :
    stringBody opened fuel (chars.flatMap (charText escapeWide) ++ '"' :: rest) =
      .ok (chars, rest) := by
  induction chars generalizing fuel with
  | nil =>
      cases fuel with
      | zero => cases enough
      | succ => simp [stringBody, isPlain]
  | cons c chars ih =>
      rw [List.length_cons] at enough
      obtain ⟨less, rfl⟩ : ∃ less, fuel = less + 1 := ⟨fuel - 1, by omega⟩
      obtain ⟨next, after, shape⟩ : ∃ next after,
          chars.flatMap (charText escapeWide) ++ '"' :: rest = next :: after :=
        List.exists_cons_of_ne_nil (by simp)
      rw [List.flatMap_cons, List.append_assoc, shape]
      refine stringBody_charText escapeWide fun more larger => ?_
      rw [← shape]
      exact ih (by omega)

theorem wideEscape_ne_nil (c : Char) : wideEscape c ≠ [] := by
  unfold wideEscape
  split
  · exact List.cons_ne_nil _ _
  · exact List.append_ne_nil_of_left_ne_nil (List.cons_ne_nil _ _) _

theorem charText_ne_nil (escapeWide : Bool) (c : Char) : charText escapeWide c ≠ [] := by
  unfold charText
  repeat' split
  all_goals first | exact List.cons_ne_nil _ _ | exact wideEscape_ne_nil c

theorem length_le_flatMap_charText (escapeWide : Bool) (chars : List Char) :
    chars.length ≤ (chars.flatMap (charText escapeWide)).length := by
  induction chars with
  | nil => simp
  | cons c chars ih =>
      have some := List.length_pos_iff.mpr (charText_ne_nil escapeWide c)
      simp only [List.flatMap_cons, List.length_append, List.length_cons]
      omega

theorem string_stringText (escapeWide : Bool) (text : String) (rest : List Char) :
    ∃ body, stringText escapeWide text ++ rest = '"' :: body ∧
      string body = .ok (text, rest) := by
  refine ⟨text.toList.flatMap (charText escapeWide) ++ '"' :: rest, by simp [stringText], ?_⟩
  have longer := length_le_flatMap_charText escapeWide text.toList
  have enough : text.toList.length <
      (text.toList.flatMap (charText escapeWide) ++ '"' :: rest).length + 1 := by
    rw [List.length_append]
    omega
  rw [string, stringBody_flatMap_charText _ _ _ _ enough]
  simp

end Json

end NextOffer
