import Mathlib.Data.Nat.Log
import NextOffer.Proofs.Binary64.Shortest
import NextOffer.Proofs.Number.Line

/-! # Rounding keeps the order

Of two quotients the larger one is never rounded to less. Within one binade both are rounded to
steps of the same size, and between two binades stands a power of two that neither of them
passes. So every operation that rounds its exact result keeps the order of the exact results,
whatever their signs.
-/

namespace NextOffer

theorem roundDiv_mono {num num' : Nat} (less : num ≤ num') (den : Nat) :
    roundDiv num den ≤ roundDiv num' den := by
  rcases Nat.lt_or_eq_of_le (Nat.div_le_div_right less (c := den)) with apart | same
  · calc roundDiv num den ≤ num / den + 1 := roundDiv_le_div_add_one num den
      _ ≤ num' / den := apart
      _ ≤ roundDiv num' den := div_le_roundDiv num' den
  · have rests : num % den ≤ num' % den := by
      have whole := Nat.div_add_mod num den
      have whole' := Nat.div_add_mod num' den
      rw [same] at whole
      omega
    simp only [roundDiv, same]
    split_ifs <;> omega

namespace Binary64

variable {num num' den : Nat}

theorem nearest_mono (less : num ≤ num') (den : Nat) : nearest num den ≤ nearest num' den := by
  have wholes : num / den ≤ num' / den := Nat.div_le_div_right less
  have binades : (num / den).log2 ≤ (num' / den).log2 := by
    simpa only [Nat.log2_eq_log_two] using Nat.log_mono_right wholes
  rcases Nat.lt_or_eq_of_le binades with below | same
  · have large : num' / den ≠ 0 := by
      intro zero
      simp [zero] at below
    calc nearest num den ≤ 2 ^ ((num / den).log2 + 1) := nearest_le_two_pow num den
      _ ≤ 2 ^ (num' / den).log2 := Nat.pow_le_pow_right (by decide) below
      _ ≤ nearest num' den := two_pow_le_nearest large
  · simp only [nearest, same]
    exact Nat.mul_le_mul_right _ (roundDiv_mono less _)

/-- What an exact value becomes, given as a quotient of quanta with a sign. -/
def nearestSigned (value : Int) (den : Nat) : Int :=
  signed (decide (value < 0)) (nearest value.natAbs den)

theorem nearestSigned_zero (pos : 0 < den) : nearestSigned 0 den = 0 := by
  have none : nearest 0 den = 0 := nearest_eq_zero (by omega)
  simp only [nearestSigned, Int.natAbs_zero, none, Int.lt_irrefl, decide_false]
  rfl

theorem nearestSigned_mono {value value' : Int} (less : value ≤ value') (den : Nat) :
    nearestSigned value den ≤ nearestSigned value' den := by
  unfold nearestSigned
  by_cases negative : value < 0
  · by_cases negative' : value' < 0
    · have magnitudes : value'.natAbs ≤ value.natAbs := by omega
      have rounded := nearest_mono magnitudes den
      simp only [signed, negative, negative', decide_true, if_true]
      omega
    · simp only [signed, negative, negative', decide_true, decide_false, if_true,
        Bool.false_eq_true, if_false]
      omega
  · have magnitudes : value.natAbs ≤ value'.natAbs := by omega
    have negative' : ¬ value' < 0 := by omega
    have rounded := nearest_mono magnitudes den
    simp only [signed, negative, negative', decide_false, Bool.false_eq_true, if_false]
    omega

theorem place?_ofQuotient (pos : 0 < den) {negative : Bool}
    (finite : (ofQuotient negative num den).isFinite = true) :
    (ofQuotient negative num den).place? =
      some (.at (nearestSigned (signed negative num) den)) := by
  have sign : signed negative (nearest num den) = nearestSigned (signed negative num) den := by
    rw [nearestSigned, natAbs_signed]
    rcases Nat.eq_zero_or_pos num with rfl | positive
    · have zero : nearest 0 den = 0 := nearest_eq_zero (by omega)
      cases negative <;> simp [signed, zero]
    · have below : decide (signed negative num < 0) = negative := by
        cases negative <;> simp [signed, positive]
      rw [below]
  rcases eq_finite_or_infinity negative num den with ⟨_, same⟩ | same
  · rw [same, place?, sign]
  · rw [same] at finite
    cases finite

theorem place?_ofQuanta {negativeZero : Bool} {quanta : Int}
    (finite : (ofQuanta negativeZero quanta).isFinite = true) :
    (ofQuanta negativeZero quanta).place? = some (.at (nearestSigned quanta 1)) := by
  unfold ofQuanta at finite ⊢
  split at finite
  case isTrue zero =>
      rw [if_pos zero, zero, nearestSigned_zero Nat.one_pos]
      cases negativeZero <;> rfl
  case isFalse nonzero =>
      rw [if_neg nonzero, place?_ofQuotient Nat.one_pos finite, signed_natAbs]

end Binary64

theorem Number.place?_quotient {num den : Int} (pos : 0 < den) {x : Binary64}
    (divided : quotient num den = .ok x) :
    x.place? = some (.at (Binary64.nearestSigned (num * Binary64.unit) den.natAbs)) := by
  have size : 0 < den.natAbs := Int.natAbs_pos.mpr pos.ne'
  unfold quotient at divided
  rw [if_neg pos.ne'] at divided
  split at divided
  case isTrue zero =>
      cases divided
      rw [zero, Int.zero_mul, Binary64.nearestSigned_zero size]
      rfl
  case isFalse nonzero =>
      have unsigned : decide (den < 0) = false := decide_eq_false (by omega)
      rw [unsigned, Bool.bne_false] at divided
      rcases Binary64.eq_finite_or_infinity (decide (num < 0)) (num.natAbs * Binary64.unit)
        den.natAbs with ⟨exact, same⟩ | same
      · have finite : (Binary64.ofQuotient (decide (num < 0)) (num.natAbs * Binary64.unit)
            den.natAbs).isFinite = true := by
          rw [same]
          rfl
        have place := Binary64.place?_ofQuotient size finite
        rw [same] at divided place
        cases divided
        rw [place, Binary64.signed_mul, Binary64.signed_natAbs]
      · rw [same] at divided
        cases divided

end NextOffer
