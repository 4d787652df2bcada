import NextOffer.Condition.Comparison
import NextOffer.Proofs.Binary64.Notation
import NextOffer.Proofs.Number.Line

/-! # The text of a number for readers

A whole floating point value is written like the integer at its place, and every other value
has a mark in its text that no integer has. So two numbers have one text exactly when they lie
at one place, whatever their kinds. The text has small letters only, and stays as it is when
texts are compared in lower case.
-/

namespace NextOffer

/-- The characters of which texts of numbers are made. -/
def isNumeral (c : Char) : Bool := c.isDigit || "+-.einfa".toList.contains c

theorem isNumeral_of_isDigit {c : Char} (digit : c.isDigit = true) : isNumeral c = true := by
  rw [isNumeral, digit, Bool.true_or]

theorem isNumeral_of_mem_signedDigits {n : Int} {c : Char} (member : c ∈ signedDigits n) :
    isNumeral c = true := by
  rcases mem_signedDigits member with rfl | digit
  · rfl
  · exact isNumeral_of_isDigit digit

namespace Binary64

theorem isNumeral_of_mem_exponentChars {exponent : Int} {c : Char}
    (member : c ∈ exponentChars exponent) : isNumeral c = true := by
  obtain ⟨digits, shape, -, all, -⟩ := exponentChars_eq exponent
  rw [shape, List.mem_cons, List.mem_cons] at member
  rcases member with rfl | rfl | member
  · rfl
  · split <;> rfl
  · exact isNumeral_of_isDigit (all c member)

theorem Spells.isNumeral_of_mem {magnitude : Nat} {text : List Char} {c : Char}
    (spells : Spells magnitude text) (member : c ∈ text) : isNumeral c = true := by
  obtain ⟨spelled, -, digits, digits', -⟩ := spells
  have point {rest : List Char} (all : ∀ c ∈ rest, c.isDigit = true) (inside : c ∈ '.' :: rest) :
      isNumeral c = true := by
    rcases List.mem_cons.mp inside with rfl | inside
    · rfl
    · exact isNumeral_of_isDigit (all c inside)
  cases spelled with
  | plain =>
      rcases List.mem_append.mp member with front | behind
      · exact isNumeral_of_isDigit (digits c front)
      · exact point digits' behind
  | scaled exponent =>
      rw [List.mem_append, List.mem_append] at member
      rcases member with (front | behind) | power
      · exact isNumeral_of_isDigit (digits c front)
      · split at behind
        case isTrue => cases behind
        case isFalse => exact point digits' behind
      · exact isNumeral_of_mem_exponentChars power

theorem Spells.exists_mark {magnitude : Nat} {text : List Char} (spells : Spells magnitude text) :
    ∃ c ∈ text, c ∈ ['.', 'e', 'n'] := by
  obtain @⟨_, _, exponent, spelled, -⟩ := spells
  cases spelled with
  | plain => exact ⟨'.', by simp, by simp⟩
  | scaled =>
      obtain ⟨digits, shape, -⟩ := exponentChars_eq exponent
      exact ⟨'e', by simp [shape], by simp⟩

theorem isNumeral_of_mem_chars {x : Binary64} {c : Char} (member : c ∈ x.chars) :
    isNumeral c = true := by
  have word (text : List Char) (all : text.all isNumeral = true) (inside : c ∈ text) :
      isNumeral c = true := List.all_eq_true.mp all c inside
  have sign {negative : Bool} (front : c ∈ if negative then ['-'] else []) :
      isNumeral c = true := by
    cases negative with
    | true => exact word ['-'] (by decide) front
    | false => cases front
  cases x with
  | nan => exact word "nan".toList (by decide) member
  | infinity negative =>
      rcases List.mem_append.mp member with front | behind
      · exact sign front
      · exact word "inf".toList (by decide) behind
  | finite negative quanta exact =>
      rcases List.mem_append.mp member with front | behind
      · exact sign front
      · split at behind
        case isTrue => exact word "0.0".toList (by decide) behind
        case isFalse nonzero => exact (spells_shortest exact nonzero).isNumeral_of_mem behind

/-- A mark in the text of a floating point value tells it from an integer. -/
theorem chars_ne_signedDigits (x : Binary64) (n : Int) : x.chars ≠ signedDigits n := by
  intro same
  have marked : ∃ c ∈ x.chars, c ∈ ['.', 'e', 'n'] := by
    cases x with
    | nan => exact ⟨'n', by decide, by decide⟩
    | infinity negative => exact ⟨'n', by simp [chars], by decide⟩
    | finite negative quanta exact =>
        by_cases zero : quanta = 0
        · exact ⟨'.', by simp [chars, zero], by decide⟩
        · obtain ⟨c, member, mark⟩ := (spells_shortest exact zero).exists_mark
          rw [chars, if_neg zero]
          exact ⟨c, List.mem_append_right _ member, mark⟩
  obtain ⟨c, member, mark⟩ := marked
  rw [same] at member
  rcases mem_signedDigits member with rfl | digit
  · simp at mark
  · simp only [List.mem_cons, List.not_mem_nil, or_false] at mark
    rcases mark with rfl | rfl | rfl <;> simp at digit

end Binary64

namespace Number

theorem chars_injective : Function.Injective chars := by
  intro x y same
  cases x with
  | int n =>
      cases y with
      | int m => rw [signedDigits_injective same]
      | real value => exact absurd same.symm (value.chars_ne_signedDigits n)
  | real value =>
      cases y with
      | int m => exact absurd same (value.chars_ne_signedDigits m)
      | real other => rw [Binary64.chars_injective same]

/-- The number with the kind in which readers see it: whole values are integers. -/
def reduced : Number → Number
  | int n => int n
  | real x => if x.isIntegral then int x.truncate else real x

theorem plainChars_eq (x : Number) : x.plainChars = x.reduced.chars := by
  cases x with
  | int n => rfl
  | real value =>
      simp only [plainChars, reduced]
      split <;> rfl

theorem isNumeral_of_mem_plainChars {x : Number} {c : Char} (member : c ∈ x.plainChars) :
    isNumeral c = true := by
  rw [plainChars_eq] at member
  cases seen : x.reduced with
  | int n =>
      rw [seen] at member
      exact isNumeral_of_mem_signedDigits member
  | real value =>
      rw [seen] at member
      exact Binary64.isNumeral_of_mem_chars member

/-! ## One text for one place -/

theorem place?_reduced (x : Number) : x.reduced.place? = x.place? := by
  cases x with
  | int n => rfl
  | real value =>
      rw [reduced]
      split
      case isFalse => rfl
      case isTrue whole =>
          cases value with
          | nan => cases whole
          | infinity negative => cases whole
          | finite negative quanta exact =>
              have multiple : quanta / Binary64.unit * Binary64.unit = quanta :=
                Nat.div_mul_cancel (Nat.dvd_of_mod_eq_zero (of_decide_eq_true whole))
              simp only [place?, Binary64.truncate, Binary64.place?, ← Binary64.signed_mul,
                multiple]

theorem reduced_of_place?_int {x : Number} {n : Int} (place : x.place? = (int n).place?) :
    x.reduced = int n := by
  have integer {m : Int} (seen : x.reduced = int m) : x.reduced = int n := by
    rw [← place?_reduced, seen] at place
    rw [seen, place?_int_injective place]
  cases x with
  | int m => exact integer rfl
  | real value =>
      cases value with
      | nan => cases place
      | infinity negative => cases negative <;> cases place
      | finite negative quanta exact =>
          simp only [place?, Binary64.place?, Option.some.injEq, Place.at.injEq] at place
          have size := congrArg Int.natAbs place
          rw [Binary64.natAbs_signed, Int.natAbs_mul, Int.natAbs_natCast] at size
          have whole : (Binary64.finite negative quanta exact).isIntegral = true := by
            simp [Binary64.isIntegral, size]
          exact integer (if_pos whole)

theorem reduced_eq_of_place? {x y : Number} (placed : x.place?.isSome)
    (place : x.place? = y.place?) : x.reduced = y.reduced := by
  cases x with
  | int n => exact (reduced_of_place?_int place.symm).symm
  | real value =>
      cases y with
      | int m => exact reduced_of_place?_int place
      | real other =>
          cases zero : value.isZero with
          | false => rw [Binary64.eq_of_place? zero placed place]
          | true =>
              have middle : (real value).place? = (int 0).place? := by
                rw [place?, place?, Binary64.place?_of_isZero zero, Int.zero_mul]
              rw [reduced_of_place?_int middle, reduced_of_place?_int (place.symm.trans middle)]

/-- Two numbers have one text for readers exactly when they have one value. -/
theorem plainChars_eq_iff {x y : Number} (placed : x.place?.isSome) :
    x.plainChars = y.plainChars ↔ x.same y = true := by
  rw [same_iff placed, plainChars_eq, plainChars_eq, chars_injective.eq_iff]
  constructor
  · intro seen
    rw [← place?_reduced x, seen, place?_reduced]
  · exact reduced_eq_of_place? placed

end Number

/-! ## Lower case -/

namespace Text

theorem lowerAt_of_isNumeral {c : Char} (numeral : isNumeral c = true) (before after : List Char) :
    lowerAt before c after = [c] := by
  have small : c.toNat < 0x80 ∧ c.toLower = c := by
    rw [isNumeral, Bool.or_eq_true, List.contains_iff_mem] at numeral
    rcases numeral with digit | mark
    · refine ⟨?_, Binary64.toLower_of_digit digit⟩
      simp only [Char.isDigit, Bool.and_eq_true, decide_eq_true_eq, UInt32.le_iff_toNat_le]
        at digit
      exact Nat.lt_of_le_of_lt digit.2 (by decide)
    · have named :
          c = '+' ∨ c = '-' ∨ c = '.' ∨ c = 'e' ∨ c = 'i' ∨ c = 'n' ∨ c = 'f' ∨ c = 'a' := by
        simpa using mark
      rcases named with rfl | rfl | rfl | rfl | rfl | rfl | rfl | rfl <;> decide
  -- The two letters with a rule of their own lie past the basic Latin block.
  have noLetter {other : Char} (large : 0x80 ≤ other.toNat) : c ≠ other := by
    rintro rfl
    exact absurd small.1 (Nat.not_lt.mpr large)
  rw [lowerAt, if_neg (noLetter (by decide)), if_neg (noLetter (by decide)), lowerChar,
    if_pos small.1, small.2]

theorem lowerFrom_of_isNumeral {cs : List Char} (all : ∀ c ∈ cs, isNumeral c = true)
    (before : List Char) : lowerFrom before cs = cs := by
  induction cs generalizing before with
  | nil => rfl
  | cons c rest ih =>
      obtain ⟨numeral, more⟩ := List.forall_mem_cons.mp all
      rw [lowerFrom, lowerAt_of_isNumeral numeral, ih more, List.singleton_append]

end Text

theorem Json.Value.folded_number (x : Number) : (number x).folded = x.plainChars := by
  rw [folded, flatChars]
  exact Text.lowerFrom_of_isNumeral (fun c member => Number.isNumeral_of_mem_plainChars member) []

end NextOffer
