import NextOffer.Json.Parser
import NextOffer.Json.Printer
import NextOffer.Proofs.Binary64.Notation
import NextOffer.Proofs.Json.Within

/-! # Numbers are read back

The text of a number, in front of anything that cannot go on with it, is read as that number and
with its kind: the reader takes a sign, digits, a point in front of more digits and an exponent
exactly as they are written. The special values have words that begin like nothing else.
-/

namespace NextOffer

namespace Json

/-- Nothing in front of the text goes on with a number. -/
def EndsNumber (rest : List Char) : Prop :=
  ∀ c ∈ rest.head?, c.isDigit = false ∧ c ≠ '.' ∧ c ≠ 'e' ∧ c ≠ 'E'

theorem EndsNumber.stop {rest : List Char} (ends : EndsNumber rest) :
    ∀ c ∈ rest.head?, c.isDigit = false :=
  fun c first => (ends c first).1

theorem EndsNumber.noPoint {rest : List Char} (ends : EndsNumber rest) :
    ∀ c ∈ rest.head?, c.isDigit = false ∧ c ≠ '.' :=
  fun c first => ⟨(ends c first).1, (ends c first).2.1⟩

theorem takeExponent?_eq_none {rest : List Char} (ends : EndsNumber rest) :
    takeExponent? rest = none := by
  cases rest with
  | nil => rfl
  | cons c rest =>
      obtain ⟨-, -, small, large⟩ := ends c rfl
      simp [takeExponent?, small, large]

/-! ## Signs and digits -/

section Signs

variable (negative : Bool) {text : List Char}

open Binary64

theorem head?_signed (begins : BeginsWithDigit text) :
    ((if negative then ['-'] else []) ++ text).head? = some '-' ↔ negative = true := by
  have noSign : text.head? ≠ some '-' := begins.head?_ne rfl
  cases negative <;> simp [noSign]

theorem tail_signed (text : List Char) :
    (if negative = true then ((if negative then ['-'] else []) ++ text).tail
      else (if negative then ['-'] else []) ++ text) = text := by
  cases negative <;> rfl

theorem find?_words_of_digit (begins : BeginsWithDigit text) :
    words.find? (fun word => word.1.isPrefixOf ((if negative then ['-'] else []) ++ text)) =
      none := by
  obtain ⟨c, more, rfl, digit⟩ := begins
  have other {letter : Char} (noDigit : letter.isDigit = false) : letter ≠ c := by
    rintro rfl
    simp [noDigit] at digit
  cases negative with
  | true => simp [words, List.isPrefixOf, @other 'I' rfl]
  | false =>
      simp [words, List.isPrefixOf, @other 'n' rfl, @other 't' rfl, @other 'f' rfl,
        @other 'N' rfl, @other 'I' rfl, @other '-' rfl]

end Signs

/-- The digits that are taken as the whole part: all of them, since a zero leads only alone. -/
theorem wholePart_eq {whole rest : List Char} (nonempty : whole ≠ [])
    (digits : ∀ c ∈ whole, c.isDigit = true) (lead : whole.head? = some '0' → whole = ['0'])
    (stop : ∀ c ∈ rest.head?, c.isDigit = false) :
    (if (whole ++ rest).head? = some '0' then ['0'] else leadingDigits (whole ++ rest)) =
      whole := by
  rw [List.head?_append_of_ne_nil _ nonempty]
  split
  case isTrue zero => exact (lead zero).symm
  case isFalse => exact leadingDigits_append digits stop

/-- The reader takes a sign, a whole part and a fraction as they are written. What stands behind
decides whether there is an exponent, and a number with neither is an integer. -/
theorem number?_of_parts {whole fraction tail : List Char} (nonempty : whole ≠ [])
    (digits : ∀ c ∈ whole, c.isDigit = true) (digits' : ∀ c ∈ fraction, c.isDigit = true)
    (lead : whole.head? = some '0' → whole = ['0']) (negative : Bool)
    (stop : ∀ c ∈ tail.head?, c.isDigit = false ∧ c ≠ '.') :
    number? ((if negative then ['-'] else []) ++
        (whole ++ ((if fraction = [] then [] else '.' :: fraction) ++ tail))) =
      (takeExponent? tail).elim
        (if fraction = [] then
          some (.int (if negative then -(Nat.ofDigitChars 10 whole 0 : Int)
            else Nat.ofDigitChars 10 whole 0), tail)
        else some (.real (Binary64.ofParts negative whole fraction 0), tail))
        fun found => some (.real (Binary64.ofParts negative whole fraction found.1), found.2) := by
  have sign (behind : List Char) :=
    propext (head?_signed negative (Binary64.beginsWithDigit_append nonempty digits behind))
  have body := tail_signed negative
  have front {behind : List Char} := @wholePart_eq whole behind nonempty digits lead
  by_cases none : fraction = []
  · have point : tail.head? ≠ some '.' := fun found => (stop '.' found).2 rfl
    have whole_only := front fun c first => (stop c first).1
    subst none
    unfold number?
    simp only [if_true, List.nil_append, sign, body, whole_only, nonempty, if_false,
      List.drop_left, point, Bool.decide_eq_true]
    cases takeExponent? tail <;> rfl
  · have point := @front ('.' :: (fraction ++ tail)) (by simp)
    have behind := leadingDigits_append digits' fun c first => (stop c first).1
    unfold number?
    simp only [none, if_false, List.cons_append, sign, body, point, nonempty, List.drop_left,
      List.head?_cons, if_true, List.tail_cons, behind, List.drop_succ_cons, Bool.decide_eq_true]
    cases takeExponent? tail <;> rfl

/-! ## Integers -/

theorem lead_toDigits (n : Nat) :
    (Nat.toDigits 10 n).head? = some '0' → Nat.toDigits 10 n = ['0'] := by
  intro zero
  rcases Nat.eq_zero_or_pos n with rfl | positive
  · rfl
  · exact absurd zero (head?_toDigits_ne_zero positive)

theorem exists_sign (n : Int) : ∃ negative : Bool, (negative = true ↔ n < 0) ∧
    signedDigits n = (if negative then ['-'] else []) ++ Nat.toDigits 10 n.natAbs :=
  ⟨decide (n < 0), decide_eq_true_iff, by simp [signedDigits_eq]⟩

theorem number?_signedDigits {rest : List Char} (ends : EndsNumber rest) (n : Int) :
    number? (signedDigits n ++ rest) = some (.int n, rest) := by
  obtain ⟨negative, same, shape⟩ := exists_sign n
  have read := @number?_of_parts _ [] rest Nat.toDigits_ne_nil isDigit_of_mem_toDigits
    (by simp) (lead_toDigits n.natAbs) negative ends.noPoint
  have value : (if negative then -(n.natAbs : Int) else n.natAbs) = n := by
    simp only [same]
    split <;> omega
  rw [takeExponent?_eq_none ends, ofDigitChars_toDigits, value] at read
  rw [shape, List.append_assoc]
  exact read

/-! ## Floating point values -/

theorem number?_of_spelled {whole fraction text : List Char} {exponent : Int}
    (spelled : Binary64.Spelled whole fraction exponent text) (nonempty : whole ≠ [])
    (digits : ∀ c ∈ whole, c.isDigit = true) (digits' : ∀ c ∈ fraction, c.isDigit = true)
    (lead : whole.head? = some '0' → whole = ['0']) (negative : Bool) {rest : List Char}
    (ends : EndsNumber rest) :
    number? ((if negative then ['-'] else []) ++ (text ++ rest)) =
      some (.real (Binary64.ofParts negative whole fraction exponent), rest) := by
  cases spelled with
  | plain pointed =>
      have read := number?_of_parts nonempty digits digits' lead negative ends.noPoint
      rw [takeExponent?_eq_none ends, if_neg pointed] at read
      rw [List.append_assoc, read, Option.elim_none, if_neg pointed]
  | scaled =>
      obtain ⟨power, shape, -⟩ := Binary64.exponentChars_eq exponent
      have read := @number?_of_parts _ _ (Binary64.exponentChars exponent ++ rest) nonempty
        digits digits' lead negative (by simp [shape])
      rw [Binary64.takeExponent?_exponentChars exponent ends.stop] at read
      rw [List.append_assoc, List.append_assoc, read, Option.elim_some]

/-! ## Numbers of both kinds -/

/-- A text with a sign and digits behind it, in which the reader finds the number. -/
structure Digital (x : Number) (negative : Bool) (text : List Char) : Prop where
  signed : numberText x = (if negative then ['-'] else []) ++ text
  begins : ∀ rest, Binary64.BeginsWithDigit (text ++ rest)
  read : ∀ {rest}, EndsNumber rest → number? (numberText x ++ rest) = some (x, rest)

theorem numberText_cases (x : Number) :
    x = .real .nan ∨ (∃ negative, x = .real (.infinity negative)) ∨
      ∃ negative text, Digital x negative text := by
  cases x with
  | int n =>
      obtain ⟨negative, -, shape⟩ := exists_sign n
      exact .inr (.inr ⟨negative, _, shape,
        Binary64.beginsWithDigit_append Nat.toDigits_ne_nil isDigit_of_mem_toDigits,
        fun ends => number?_signedDigits ends n⟩)
  | real x =>
      cases x with
      | nan => exact .inl rfl
      | infinity negative => exact .inr (.inl ⟨negative, rfl⟩)
      | finite negative quanta exact =>
          obtain ⟨whole, fraction, exponent, text, shape, spelled, nonempty, digits, digits', lead,
            value⟩ := Binary64.exists_parts negative exact
          refine .inr (.inr ⟨negative, text, shape, fun rest => ?_, fun {rest} ends => ?_⟩)
          · cases spelled with
            | plain =>
                rw [List.append_assoc]
                exact Binary64.beginsWithDigit_append nonempty digits _
            | scaled =>
                rw [List.append_assoc, List.append_assoc]
                exact Binary64.beginsWithDigit_append nonempty digits _
          · change number? ((Binary64.finite negative quanta exact).chars ++ rest) = _
            rw [shape, List.append_assoc,
              number?_of_spelled spelled nonempty digits digits' lead negative ends, value]

theorem numberText_eq_cons (x : Number) :
    ∃ c more, numberText x = c :: more ∧
      (c.isDigit = true ∨ c = '-' ∨ c = 'N' ∨ c = 'I') := by
  rcases numberText_cases x with rfl | ⟨negative, rfl⟩ | ⟨negative, text, shape, begins, -⟩
  · exact ⟨'N', _, rfl, by simp⟩
  · cases negative with
    | true => exact ⟨'-', _, rfl, by simp⟩
    | false => exact ⟨'I', _, rfl, by simp⟩
  · obtain ⟨c, more, same, digit⟩ := begins []
    rw [List.append_nil] at same
    subst same
    cases negative with
    | true => exact ⟨'-', _, shape, by simp⟩
    | false => exact ⟨c, _, shape, .inl digit⟩

/-- The text of a number is read as that number. -/
theorem atom_numberText {x : Number} (short : (Value.number x).HasShortInteger) {rest : List Char}
    (ends : EndsNumber rest) : atom (numberText x ++ rest) = .ok (.number x, rest) := by
  rcases numberText_cases x with rfl | ⟨negative, rfl⟩ | ⟨negative, text, signed, begins, read⟩
  · simp [atom, numberText, words, List.isPrefixOf]
  · cases negative <;> simp [atom, numberText, words, List.isPrefixOf]
  · have noWord := find?_words_of_digit negative (begins rest)
    rw [← List.append_assoc, ← signed] at noWord
    cases x with
    | int n => simp only [atom, noWord, read ends, show n.natAbs < _ from short, if_true, Value.int]
    | real x => simp only [atom, noWord, read ends]

end Json

end NextOffer
