import NextOffer.Proofs.Binary64.Range
import NextOffer.Proofs.Writing

/-! # Where arithmetic fails

An operation on numbers is exact on integers, and on floating point values it rounds. It fails
only between the two, where an integer that no floating point value is near has to become one.
-/

namespace NextOffer.Number

/-- An integer that does not become a floating point value. -/
def Oversized : Number → Prop
  | .int n => Binary64.Oversized n
  | .real _ => False

/-- Numbers of both kinds, of which the integer is oversized. -/
def Clash : Number → Number → Prop
  | .int n, .real _ => Binary64.Oversized n
  | .real _, .int n => Binary64.Oversized n
  | _, _ => False

theorem toBinary64?_eq_error_iff {x : Number} {fault : ArithmeticFault} :
    x.toBinary64? = .error fault ↔ fault = .integerTooLarge ∧ x.Oversized := by
  cases x with
  | int n => exact Binary64.ofInt?_eq_error_iff
  | real value => simp [toBinary64?, Oversized]

/-- Integers of the size of floating point values can be written. -/
theorem isWritable_of_lt {n : Int} (small : n.natAbs < Nat.pow 2 1024) :
    (int n).isWritable = true := by
  have fits : Nat.pow 2 1024 ≤ Nat.pow 10 digitLimit := by decide +kernel
  rw [isWritable_int_iff]
  generalize Nat.pow 10 digitLimit = limit at *
  generalize Nat.pow 2 1024 = bound at *
  omega

theorem isWritable_truncate (x : Binary64) : (int x.truncate).isWritable = true := by
  have positive : 0 < Nat.pow 2 1024 := by decide +kernel
  have product : Binary64.unit * Nat.pow 2 1024 = Nat.pow 2 2098 := by decide +kernel
  refine isWritable_of_lt ?_
  generalize Nat.pow 2 1024 = bound at *
  cases x with
  | nan | infinity _ => exact positive
  | finite negative quanta exact =>
      have room : quanta < Nat.pow 2 2098 := exact.1
      rw [Binary64.truncate, Binary64.natAbs_signed]
      exact Nat.div_lt_of_lt_mul (room.trans_eq product.symm)

theorem isWritable_of_toBinary64? {x : Number} {value : Binary64}
    (converted : x.toBinary64? = .ok value) : x.isWritable = true := by
  cases x with
  | real => rfl
  | int n =>
      have small : ¬ (int n).Oversized := by
        intro oversized
        rw [toBinary64?_eq_error_iff.mpr ⟨rfl, oversized⟩] at converted
        cases converted
      rw [Oversized, Binary64.Oversized, Nat.not_le] at small
      refine isWritable_of_lt ?_
      generalize Nat.pow 2 1024 = bound at *
      omega

theorem combine_eq_error_iff {exact : Int → Int → Int} {rounded : Binary64 → Binary64 → Binary64}
    {x y : Number} {fault : ArithmeticFault} :
    combine exact rounded x y = .error fault ↔ fault = .integerTooLarge ∧ x.Clash y := by
  cases x with
  | int n =>
      cases y with
      | int m => simp [combine, Clash]
      | real value =>
          rw [Clash, ← Binary64.ofInt?_eq_error_iff]
          simp only [combine, Outcome.bind_eq_error_iff, toBinary64?]
          simp
  | real value =>
      cases y with
      | int m =>
          rw [Clash, ← Binary64.ofInt?_eq_error_iff]
          simp only [combine, Outcome.bind_eq_error_iff, toBinary64?]
          simp
      | real other => simp [combine, toBinary64?, Clash]

theorem add_eq_error_iff {x y : Number} {fault : ArithmeticFault} :
    x.add y = .error fault ↔ fault = .integerTooLarge ∧ x.Clash y :=
  combine_eq_error_iff

theorem mul_eq_error_iff {x y : Number} {fault : ArithmeticFault} :
    x.mul y = .error fault ↔ fault = .integerTooLarge ∧ x.Clash y :=
  combine_eq_error_iff

/-- A quotient by a positive integer has a result when already its dividend is within range. -/
theorem quotient_returns {num den : Int} (pos : 0 < den)
    (room : num.natAbs * Binary64.unit < Binary64.limit) : ∃ x, quotient num den = .ok x := by
  unfold quotient
  rw [if_neg pos.ne']
  split
  case isTrue => exact ⟨_, rfl⟩
  case isFalse =>
      have size : 0 < den.natAbs := Int.natAbs_pos.mpr pos.ne'
      have finite :=
        (Binary64.isFinite_ofQuotient_iff size (decide (num < 0) != decide (den < 0))).mpr
          (room.trans_le (Nat.le_mul_of_pos_right _ size))
      obtain ⟨_, _, _, same⟩ := Binary64.exists_of_isFinite finite
      rw [same]
      exact ⟨_, rfl⟩

end NextOffer.Number
