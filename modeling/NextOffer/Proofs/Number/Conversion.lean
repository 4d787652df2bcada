import NextOffer.Proofs.Number.Line

/-! # Converting numbers

A number where a floating point value lies becomes that value, and so does every integer of at
most 53 bits. Numbers of one value stay together when they are converted.
-/

namespace NextOffer

namespace Binary64

theorem place?_ofInt {n : Int} (exact : Representable (n * unit).natAbs) :
    (ofInt n).place? = some (.at (n * unit)) := by
  unfold ofInt ofQuanta
  generalize n * (unit : Int) = quanta at *
  split
  case isTrue zero => rw [zero]; rfl
  case isFalse =>
      simp only [ofQuotient, nearest_of_representable exact, exact, dif_pos, place?,
        signed_natAbs]

/-- A magnitude of at most 53 bits stays exact when it is scaled by a power of two. -/
theorem mul_two_pow_mod_step {n : Nat} (positive : 0 < n) (small : n.log2 ≤ 52) (scale : Nat) :
    n * Nat.pow 2 scale % Nat.pow 2 ((n * Nat.pow 2 scale).log2 - 52) = 0 := by
  change n * 2 ^ scale % 2 ^ ((n * 2 ^ scale).log2 - 52) = 0
  have bits : (n * 2 ^ scale).log2 = n.log2 + scale := by
    rw [Nat.log2_eq_iff (Nat.mul_pos positive (Nat.two_pow_pos scale)).ne']
    have low := Nat.log2_self_le positive.ne'
    have high := @Nat.lt_log2_self n
    constructor
    · rw [pow_add]
      exact Nat.mul_le_mul_right _ low
    · rw [Nat.add_right_comm, pow_add]
      exact Nat.mul_lt_mul_of_pos_right high (Nat.two_pow_pos scale)
  have divides : 2 ^ (n.log2 + scale - 52) ∣ 2 ^ scale := pow_dvd_pow 2 (by omega)
  rw [bits]
  exact Nat.mod_eq_zero_of_dvd (Nat.dvd_mul_left_of_dvd divides n)

theorem representable_of_le {n : Nat} (small : n ≤ Nat.pow 2 53) : Representable (n * unit) := by
  rcases Nat.eq_or_lt_of_le small with rfl | less
  · decide +kernel
  · rcases Nat.eq_zero_or_pos n with rfl | positive
    · rw [Nat.zero_mul]
      exact representable_zero
    · constructor
      · calc n * unit < Nat.pow 2 53 * unit := Nat.mul_lt_mul_of_pos_right less unit_pos
          _ ≤ Nat.pow 2 2098 := by decide +kernel
      · have bits := (Nat.log2_lt positive.ne').mpr less
        unfold unit
        generalize 1074 = scale
        exact mul_two_pow_mod_step positive (Nat.le_of_lt_succ bits) scale

theorem isFinite_of_ofInt? {n : Int} {x : Binary64} (converted : ofInt? n = .ok x) :
    x.isFinite = true := by
  unfold ofInt? at converted
  split at converted
  case h_1 => cases converted
  case h_2 noInfinity =>
      cases converted
      unfold ofInt ofQuanta at *
      split
      case isTrue => rfl
      case isFalse nonzero =>
          rw [if_neg nonzero] at noInfinity
          rcases eq_finite_or_infinity (decide (n * unit < 0)) (n * unit).natAbs 1 with
            ⟨_, finite⟩ | infinite
          · rw [finite, isFinite]
          · exact absurd infinite (noInfinity _)

end Binary64

namespace Number

variable {a b : Number} {x y : Binary64}

theorem placed_of_toBinary64? (placed : a.place?.isSome) (converted : a.toBinary64? = .ok x) :
    (real x).place?.isSome := by
  cases a with
  | real value =>
      cases converted
      exact placed
  | int n =>
      obtain ⟨_, _, _, rfl⟩ := Binary64.exists_of_isFinite (Binary64.isFinite_of_ofInt? converted)
      rfl

theorem place?_of_toBinary64? (converted : a.toBinary64? = .ok x) {value : Binary64}
    (there : a.place? = value.place?) : x.place? = a.place? := by
  cases a with
  | real value =>
      cases converted
      rfl
  | int n =>
      have exact : Representable (n * Binary64.unit).natAbs := by
        cases value with
        | nan => cases there
        | infinity negative => cases negative <;> cases there
        | finite negative quanta exact =>
            simp only [place?, Binary64.place?, Option.some.injEq, Place.at.injEq] at there
            rw [there, Binary64.natAbs_signed]
            exact exact
      simp only [toBinary64?, Binary64.ofInt?] at converted
      split at converted
      case h_1 => cases converted
      case h_2 =>
          cases converted
          exact Binary64.place?_ofInt exact

/-- Conversion keeps numbers of one value together. -/
theorem same_toBinary64? (placed : a.place?.isSome) (together : a.same b = true)
    (left : a.toBinary64? = .ok x) (right : b.toBinary64? = .ok y) :
    (real x).same (real y) = true := by
  rw [same_iff (placed_of_toBinary64? placed left)]
  rw [same_iff placed] at together
  cases a with
  | real value =>
      cases left
      exact together.trans (place?_of_toBinary64? right together.symm).symm
  | int n =>
      cases b with
      | real value =>
          cases right
          exact (place?_of_toBinary64? left together).trans together
      | int m =>
          obtain rfl := place?_int_injective together
          rw [left] at right
          cases right
          rfl

theorem place?_of_small (small : ∀ n, a = int n → n.natAbs ≤ Nat.pow 2 53)
    (converted : a.toBinary64? = .ok x) : (real x).place? = a.place? := by
  cases a with
  | real value =>
      cases converted
      rfl
  | int n =>
      have exact : Representable (n * Binary64.unit).natAbs := by
        rw [Int.natAbs_mul, Int.natAbs_natCast]
        exact Binary64.representable_of_le (small n rfl)
      exact place?_of_toBinary64? converted (Binary64.place?_ofInt exact).symm

end Number

end NextOffer
