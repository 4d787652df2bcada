import NextOffer.Binary64.Notation
import NextOffer.Number
import Mathlib.Data.List.Basic

/-! # Digits

Numbers are written with their digits, an integer with its sign in front. The digits of a text
are taken as far as they go, so that they are found again in front of anything else.
-/

namespace NextOffer

theorem isDigit_of_mem_toDigits {n : Nat} : ∀ c ∈ Nat.toDigits 10 n, c.isDigit = true :=
  fun _ member => Nat.isDigit_of_mem_toDigits (by decide) (by decide) member

theorem ofDigitChars_toDigits (n : Nat) : Nat.ofDigitChars 10 (Nat.toDigits 10 n) 0 = n :=
  Nat.ofDigitChars_toDigits (by decide) (by decide)

theorem toDigits_eq_cons (n : Nat) :
    ∃ c more, Nat.toDigits 10 n = c :: more ∧ c.isDigit = true := by
  obtain ⟨c, more, shape⟩ := List.exists_cons_of_ne_nil (@Nat.toDigits_ne_nil n 10)
  have member : c ∈ Nat.toDigits 10 n := shape ▸ List.mem_cons_self
  exact ⟨c, more, shape, isDigit_of_mem_toDigits c member⟩

theorem head?_toDigits_ne_zero {n : Nat} (positive : 0 < n) :
    (Nat.toDigits 10 n).head? ≠ some '0' := by
  induction n using Nat.strongRecOn with
  | ind n ih =>
      by_cases small : n < 10
      · rw [Nat.toDigits_of_lt_base small, List.head?_cons, ne_eq, Option.some.injEq]
        intro zero
        have code := Nat.toNat_digitChar_of_lt_ten small
        have zeroCode : ('0' : Char).toNat = 48 := rfl
        rw [zero] at code
        omega
      · rw [Nat.toDigits_of_base_le (by decide) (Nat.le_of_not_lt small),
          List.head?_append_of_ne_nil _ Nat.toDigits_ne_nil]
        exact ih _ (by omega) (by omega)

theorem leadingDigits_append {digits rest : List Char} (all : ∀ c ∈ digits, c.isDigit = true)
    (stop : ∀ c ∈ rest.head?, c.isDigit = false) : leadingDigits (digits ++ rest) = digits := by
  have ended : rest.takeWhile Char.isDigit = [] := by
    cases rest with
    | nil => rfl
    | cons c rest => simp [stop c rfl]
  rw [leadingDigits, List.takeWhile_append_of_pos all, ended, List.append_nil]

theorem signedDigits_eq (n : Int) :
    signedDigits n = (if n < 0 then ['-'] else []) ++ Nat.toDigits 10 n.natAbs := by
  cases n <;> simp [signedDigits]

theorem mem_signedDigits {n : Int} {c : Char} (member : c ∈ signedDigits n) :
    c = '-' ∨ c.isDigit = true := by
  rw [signedDigits_eq, List.mem_append] at member
  rcases member with sign | digit
  · split at sign
    case isTrue => exact .inl (List.mem_singleton.mp sign)
    case isFalse => cases sign
  · exact .inr (isDigit_of_mem_toDigits c digit)

theorem toDigits_injective : Function.Injective (Nat.toDigits 10) := by
  intro a b same
  rw [← ofDigitChars_toDigits a, same, ofDigitChars_toDigits]

theorem signedDigits_injective : Function.Injective signedDigits := by
  intro a b same
  have noSign (n : Nat) (rest : List Char) : Nat.toDigits 10 n ≠ '-' :: rest := by
    intro signed
    have digit := isDigit_of_mem_toDigits '-' (signed ▸ List.mem_cons_self)
    simp at digit
  cases a with
  | ofNat a =>
      cases b with
      | ofNat b => rw [toDigits_injective same]
      | negSucc b => exact absurd same (noSign a _)
  | negSucc a =>
      cases b with
      | ofNat b => exact absurd same.symm (noSign b _)
      | negSucc b =>
          have values := toDigits_injective (List.cons.inj same).2
          congr 1
          omega

end NextOffer
