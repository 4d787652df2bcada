import NextOffer.Binary64.Notation
import NextOffer.Proofs.Binary64.Shortest
import NextOffer.Proofs.Digits

/-! # Decimal notation is read back

A text in decimal notation is made of digits, a point, more digits and an exponent, and the
reader finds exactly these parts. However a decimal is laid out, its parts make up a decimal of
the same magnitude. So the text of every floating point value is read as that value.
-/

namespace NextOffer

namespace Binary64

/-! ## Exponents -/

theorem exponentChars_eq (exponent : Int) :
    ∃ digits, exponentChars exponent = 'e' :: (if exponent < 0 then '-' else '+') :: digits ∧
      digits ≠ [] ∧ (∀ c ∈ digits, c.isDigit = true) ∧
      Nat.ofDigitChars 10 digits 0 = exponent.natAbs := by
  have read : Nat.ofDigitChars 10 (Nat.toDigits 10 exponent.natAbs) 0 = exponent.natAbs :=
    ofDigitChars_toDigits exponent.natAbs
  unfold exponentChars
  by_cases short : (Nat.toDigits 10 exponent.natAbs).length < 2
  · refine ⟨'0' :: Nat.toDigits 10 exponent.natAbs, by simp [short], by simp, ?_, ?_⟩
    · exact List.forall_mem_cons.mpr ⟨rfl, isDigit_of_mem_toDigits⟩
    · exact (Nat.ofDigitChars_append (l := ['0']) 0).trans read
  · exact ⟨Nat.toDigits 10 exponent.natAbs, by simp [short], Nat.toDigits_ne_nil,
      isDigit_of_mem_toDigits, read⟩

theorem takeExponent?_exponentChars (exponent : Int) {rest : List Char}
    (stop : ∀ c ∈ rest.head?, c.isDigit = false) :
    takeExponent? (exponentChars exponent ++ rest) = some (exponent, rest) := by
  obtain ⟨digits, shape, some, all, read⟩ := exponentChars_eq exponent
  have whole := leadingDigits_append all stop
  rw [shape, List.cons_append, List.cons_append]
  by_cases negative : exponent < 0
  · have value : -(exponent.natAbs : Int) = exponent := by omega
    simp only [takeExponent?, takeSign, negative, whole, some, read, value, if_true,
      true_or, ne_eq, not_false_eq_true, and_self, List.drop_left]
  · have value : (exponent.natAbs : Int) = exponent := by omega
    simp only [takeExponent?, takeSign, negative, whole, some, read, value, if_true,
      if_false, true_or, ne_eq, not_false_eq_true, and_self, List.drop_left]
    rfl

/-! ## Parts of a text -/

/-- A text that has digits in front of and behind its point and an exponent. It has a point
    only in front of digits, and without an exponent it has one. -/
inductive Spelled (whole fraction : List Char) : Int → List Char → Prop where
  | plain (pointed : fraction ≠ []) : Spelled whole fraction 0 (whole ++ '.' :: fraction)
  | scaled (exponent : Int) : Spelled whole fraction exponent
      (whole ++ (if fraction = [] then [] else '.' :: fraction) ++ exponentChars exponent)

/-- A text that begins with a digit. -/
def BeginsWithDigit (text : List Char) : Prop := ∃ c rest, text = c :: rest ∧ c.isDigit = true

theorem beginsWithDigit_append {digits : List Char} (nonempty : digits ≠ [])
    (all : ∀ c ∈ digits, c.isDigit = true) (rest : List Char) :
    BeginsWithDigit (digits ++ rest) := by
  obtain ⟨first, more, rfl⟩ := List.exists_cons_of_ne_nil nonempty
  exact ⟨first, more ++ rest, rfl, all first List.mem_cons_self⟩

theorem BeginsWithDigit.head?_ne {text : List Char} (begins : BeginsWithDigit text) {c : Char}
    (noDigit : c.isDigit = false) : text.head? ≠ some c := by
  obtain ⟨first, rest, rfl, digit⟩ := begins
  rintro ⟨⟩
  rw [digit] at noDigit
  cases noDigit

theorem takeSign_signed (negative : Bool) {text : List Char} (begins : BeginsWithDigit text) :
    takeSign ((if negative then ['-'] else []) ++ text) = (negative, text) := by
  obtain ⟨c, rest, rfl, digit⟩ := begins
  cases negative with
  | true => rfl
  | false =>
      change takeSign (c :: rest) = _
      unfold takeSign
      split
      case h_1 same => cases same; simp at digit
      case h_2 same => cases same; simp at digit
      case h_3 => rfl

theorem toLower_of_digit {c : Char} (digit : c.isDigit = true) : c.toLower = c := by
  simp only [Char.isDigit, Bool.and_eq_true, decide_eq_true_eq] at digit
  unfold Char.toLower
  rw [dif_neg]
  grind

theorem special?_of_digit (negative : Bool) {text : List Char} (begins : BeginsWithDigit text) :
    special? negative (String.ofList (text.map Char.toLower)) = none := by
  obtain ⟨c, rest, rfl, digit⟩ := begins
  have other (letter : Char) (more : List Char) (word : letter.isDigit = false) :
      String.ofList ((c :: rest).map Char.toLower) ≠ String.ofList (letter :: more) := by
    intro same
    rw [String.ofList_inj, List.map_cons, toLower_of_digit digit] at same
    obtain ⟨rfl, -⟩ := List.cons.inj same
    simp [digit] at word
  unfold special?
  rw [if_neg, if_neg]
  · exact other 'n' ['a', 'n'] rfl
  · rintro (same | same)
    · exact other 'i' ['n', 'f'] rfl same
    · exact other 'i' ['n', 'f', 'i', 'n', 'i', 't', 'y'] rfl same

theorem ofNotation?_of_spelled {whole fraction text : List Char} {exponent : Int}
    (spelled : Spelled whole fraction exponent text) (nonempty : whole ≠ [])
    (digits : ∀ c ∈ whole, c.isDigit = true) (digits' : ∀ c ∈ fraction, c.isDigit = true)
    (negative : Bool) :
    ofNotation? ((if negative then ['-'] else []) ++ text) =
      some (ofParts negative whole fraction exponent) := by
  have begins := beginsWithDigit_append nonempty digits
  have noSign (rest : List Char) := takeSign_signed negative (begins rest)
  have noName (rest : List Char) := special?_of_digit negative (begins rest)
  cases spelled with
  | plain =>
      have front : leadingDigits (whole ++ '.' :: fraction) = whole :=
        leadingDigits_append digits (by simp)
      have behind : leadingDigits fraction = fraction := by
        simpa using @leadingDigits_append fraction [] digits' (by simp)
      simp only [ofNotation?, noSign, noName, front, List.drop_left, List.head?_cons, if_true,
        List.tail_cons, behind, List.drop_length, nonempty, false_and, if_false]
  | scaled =>
      have read : takeExponent? (exponentChars exponent) = some (exponent, []) := by
        simpa using @takeExponent?_exponentChars exponent [] (by simp)
      obtain ⟨power, shape, -⟩ := exponentChars_eq exponent
      by_cases whole_only : fraction = []
      · subst whole_only
        rw [if_pos rfl, List.append_nil]
        have front : leadingDigits (whole ++ exponentChars exponent) = whole :=
          leadingDigits_append digits (by simp [shape])
        have noPoint : (exponentChars exponent).head? ≠ some '.' := by simp [shape]
        have more : exponentChars exponent ≠ [] := by simp [shape]
        simp only [ofNotation?, noSign, noName, front, List.drop_left, noPoint, if_false,
          nonempty, false_and, more, read]
      · rw [if_neg whole_only, List.append_assoc, List.cons_append]
        have front : leadingDigits (whole ++ '.' :: (fraction ++ exponentChars exponent)) = whole :=
          leadingDigits_append digits (by simp)
        have behind : leadingDigits (fraction ++ exponentChars exponent) = fraction :=
          leadingDigits_append digits' (by simp [shape])
        have more : exponentChars exponent ≠ [] := by simp [shape]
        simp only [ofNotation?, noSign, noName, front, List.drop_left, List.head?_cons, if_true,
          List.tail_cons, behind, nonempty, false_and, if_false, more, read]

/-! ## Layouts -/

/-- A text whose parts are digits that make up a decimal of some magnitude. A zero stands in
    front of the point only alone. -/
inductive Spells (magnitude : Nat) (text : List Char) : Prop where
  | parts {whole fraction exponent} (spelled : Spelled whole fraction exponent text)
      (nonempty : whole ≠ []) (digits : ∀ c ∈ whole, c.isDigit = true)
      (digits' : ∀ c ∈ fraction, c.isDigit = true)
      (lead : whole.head? = some '0' → whole = ['0'])
      (value : Decimal.magnitude
        ⟨Nat.ofDigitChars 10 (whole ++ fraction) 0, exponent - fraction.length⟩ = magnitude)

section Layout

variable {digits : List Char} {n : Nat} (nonempty : digits ≠ [])
  (all : ∀ c ∈ digits, c.isDigit = true) (lead : digits.head? ≠ some '0')
  (read : Nat.ofDigitChars 10 digits 0 = n)

include nonempty all lead read

/-- Zeros that are put between the point and the digits do not count, and those that are put
    between the digits and the point move it. -/
theorem spells_positional (exponent : Int) :
    Spells (Decimal.magnitude ⟨n, exponent⟩) (positional digits (digits.length + exponent)) := by
  have zero {count : Nat} : ∀ c ∈ List.replicate count '0', c.isDigit = true := by
    simp +contextual
  unfold positional
  split
  case isTrue small =>
      have front : ∀ c ∈ ['0'], c.isDigit = true := by simp
      refine .parts (.plain (List.append_ne_nil_of_right_ne_nil _ nonempty))
        (List.cons_ne_nil _ _) front (List.forall_mem_append.mpr ⟨zero, all⟩) (fun _ => rfl) ?_
      have value (count : Nat) :
          Nat.ofDigitChars 10 (['0'] ++ (List.replicate count '0' ++ digits)) 0 = n := by
        rw [Nat.ofDigitChars_append, Nat.ofDigitChars_append, Nat.ofDigitChars_replicate_zero]
        exact read
      rw [value]
      congr 2
      rw [List.length_append, List.length_replicate]
      omega
  case isFalse large =>
      split
      case isTrue whole =>
          obtain ⟨zeros, behind⟩ := Int.eq_ofNat_of_zero_le (show 0 ≤ exponent by omega)
          have count : (digits.length + exponent).toNat - digits.length = zeros := by omega
          have place : 0 - ((['0'] : List Char).length : Int) = exponent - (zeros + 1 : Nat) := by
            rw [List.length_singleton]
            omega
          have value : Nat.ofDigitChars 10 (digits ++ List.replicate zeros '0' ++ ['0']) 0 =
              n * 10 ^ (zeros + 1) := by
            rw [List.append_assoc, Nat.ofDigitChars_append, read, ← List.replicate_succ',
              Nat.ofDigitChars_replicate_zero, Nat.mul_comm]
          rw [count]
          have leads : (digits ++ List.replicate zeros '0').head? ≠ some '0' := by
            rwa [List.head?_append_of_ne_nil _ nonempty]
          refine .parts (.plain (List.cons_ne_nil _ _))
            (List.append_ne_nil_of_left_ne_nil nonempty _)
            (List.forall_mem_append.mpr ⟨all, zero⟩) (by simp) (fun zero => (leads zero).elim) ?_
          rw [value, place, Decimal.magnitude_shift]
      case isFalse inside =>
          have pointed : digits.drop (digits.length + exponent).toNat ≠ [] := by
            rw [ne_eq, List.drop_eq_nil_iff]
            omega
          refine .parts (.plain pointed) ?_ (fun c member => all c (List.mem_of_mem_take member))
            (fun c member => all c (List.mem_of_mem_drop member)) ?_ ?_
          · intro empty
            rcases List.take_eq_nil_iff.mp empty with none | none
            · omega
            · exact nonempty none
          · rw [List.head?_take, if_neg (by omega)]
            exact fun zero => (lead zero).elim
          · rw [List.take_append_drop, read]
            congr 2
            rw [List.length_drop]
            omega

theorem spells_scientific (exponent : Int) :
    Spells (Decimal.magnitude ⟨n, exponent⟩) (scientific digits (digits.length + exponent)) := by
  have single : digits.length ≤ 1 ↔ digits.drop 1 = [] := List.drop_eq_nil_iff.symm
  have some := List.length_pos_iff.mpr nonempty
  simp only [scientific, single]
  refine .parts (.scaled _) ?_ (fun c member => all c (List.mem_of_mem_take member))
    (fun c member => all c (List.mem_of_mem_drop member)) ?_ ?_
  · intro empty
    rcases List.take_eq_nil_iff.mp empty with none | none
    · cases none
    · exact nonempty none
  · rw [List.head?_take, if_neg one_ne_zero]
    exact fun zero => (lead zero).elim
  · rw [List.take_append_drop, read]
    congr 2
    rw [List.length_drop]
    omega

end Layout

/-- However a decimal is laid out, its text spells its magnitude. -/
theorem spells_layout {d : Decimal} (nonzero : d.digits ≠ 0) : Spells d.magnitude (layout d) := by
  have lead := head?_toDigits_ne_zero (Nat.pos_of_ne_zero nonzero)
  have read := ofDigitChars_toDigits d.digits
  simp only [layout]
  split
  case isTrue =>
      exact spells_positional Nat.toDigits_ne_nil isDigit_of_mem_toDigits lead read d.exponent
  case isFalse =>
      exact spells_scientific Nat.toDigits_ne_nil isDigit_of_mem_toDigits lead read d.exponent

theorem spells_shortest {quanta : Nat} (exact : Representable quanta) (nonzero : quanta ≠ 0) :
    Spells quanta (layout (shortest quanta)) := by
  have read := magnitude_shortest exact
  have digits : (shortest quanta).digits ≠ 0 :=
    digits_ne_zero_of_magnitude (by rw [read]; exact Nat.pos_of_ne_zero nonzero)
  have spells := spells_layout digits
  rwa [read] at spells

theorem exists_parts (negative : Bool) {quanta : Nat} (exact : Representable quanta) :
    ∃ whole fraction exponent text,
      (finite negative quanta exact).chars = (if negative then ['-'] else []) ++ text ∧
      Spelled whole fraction exponent text ∧ whole ≠ [] ∧ (∀ c ∈ whole, c.isDigit = true) ∧
      (∀ c ∈ fraction, c.isDigit = true) ∧ (whole.head? = some '0' → whole = ['0']) ∧
      ofParts negative whole fraction exponent = finite negative quanta exact := by
  by_cases zero : quanta = 0
  · subst zero
    have value : ofParts negative ['0'] ['0'] 0 = Binary64.zero negative := by
      cases negative <;> decide +kernel
    exact ⟨['0'], ['0'], 0, "0.0".toList, rfl, .plain (List.cons_ne_nil _ _), List.cons_ne_nil _ _,
      by simp, by simp, fun _ => rfl, value⟩
  · obtain ⟨spelled, nonempty, digits, digits', lead, value⟩ := spells_shortest exact zero
    refine ⟨_, _, _, _, by rw [chars, if_neg zero], spelled, nonempty, digits, digits', lead, ?_⟩
    subst value
    exact ofDecimal_of_magnitude negative exact (Nat.pos_of_ne_zero zero)

/-- The text of every floating point value is read as that value. -/
theorem ofNotation?_chars (x : Binary64) : ofNotation? x.chars = some x := by
  cases x with
  | nan => decide +kernel
  | infinity negative => cases negative <;> decide +kernel
  | finite negative quanta exact =>
      obtain ⟨whole, fraction, exponent, text, shape, spelled, nonempty, digits, digits', -,
        value⟩ := exists_parts negative exact
      rw [shape, ofNotation?_of_spelled spelled nonempty digits digits' negative, value]

theorem chars_injective : Function.Injective chars := by
  intro x y same
  have read := ofNotation?_chars x
  rw [same, ofNotation?_chars] at read
  exact (Option.some.inj read).symm

end Binary64

end NextOffer
