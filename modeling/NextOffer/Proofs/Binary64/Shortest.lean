import NextOffer.Binary64.Decimal
import NextOffer.Proofs.Binary64.Range

/-! # The shortest decimal reads back

Reading a decimal rounds a quotient, and a quotient stays the same when both of its sides are
multiplied. So it does not matter where the point of a decimal stands, or how many zeros end
it. Whatever the search for the shortest decimal comes to has been read back by then, and the
decimal that it falls back on is exact.
-/

namespace NextOffer

theorem roundDiv_mul_left {k : Nat} (pos : 0 < k) (num den : Nat) :
    roundDiv (k * num) (k * den) = roundDiv num den := by
  have rest : 2 * (k * (num % den)) = k * (2 * (num % den)) := by ring
  simp only [roundDiv, Nat.mul_div_mul_left _ _ pos, Nat.mul_mod_mul_left, rest,
    Nat.mul_lt_mul_left pos]

namespace Binary64

theorem nearest_mul_left {k : Nat} (pos : 0 < k) (num den : Nat) :
    nearest (k * num) (k * den) = nearest num den := by
  simp only [nearest, Nat.mul_div_mul_left _ _ pos, Nat.mul_assoc, roundDiv_mul_left pos]

theorem nearest_congr {num den num' den' : Nat} (pos : 0 < den) (pos' : 0 < den')
    (same : num * den' = num' * den) : nearest num den = nearest num' den' := by
  rw [← nearest_mul_left pos' num den, ← nearest_mul_left pos num' den', Nat.mul_comm den' num,
    Nat.mul_comm den num', same, Nat.mul_comm den den']

theorem nearest_eq_zero {num den : Nat} (small : 2 * num < den) : nearest num den = 0 := by
  have whole : num / den = 0 := Nat.div_eq_of_lt (by omega)
  have rest : num % den = num := Nat.mod_eq_of_lt (by omega)
  have step : Nat.pow 2 (Nat.log2 0 - 52) = 1 := rfl
  simp only [nearest, whole, step, Nat.mul_one, roundDiv, rest, small, if_true]

end Binary64

namespace Decimal

open Binary64

/-- The magnitude that a decimal is read as. -/
def magnitude (d : Decimal) : Nat := nearest d.quotient.1 d.quotient.2

theorem quotient_pos (d : Decimal) : 0 < d.quotient.2 := by
  unfold quotient
  split
  · exact Nat.one_pos
  · exact Nat.pow_pos (by decide)

theorem quotient_scaled (d : Decimal) {places power : Nat} (level : d.exponent + places = power) :
    d.quotient.1 * 10 ^ places = d.digits * 10 ^ power * unit * d.quotient.2 := by
  unfold quotient
  by_cases whole : 0 ≤ d.exponent
  · obtain ⟨above, same⟩ := Int.eq_ofNat_of_zero_le whole
    obtain rfl : above + places = power := by omega
    rw [if_pos whole, same, Int.toNat_natCast, Nat.pow_eq, Nat.mul_one]
    ring
  · obtain ⟨behind, same⟩ := Int.eq_ofNat_of_zero_le (show 0 ≤ -d.exponent by omega)
    obtain rfl : power + behind = places := by omega
    rw [if_neg whole, same, Int.toNat_natCast, Nat.pow_eq]
    ring

theorem magnitude_shift (digits shift : Nat) (exponent : Int) :
    magnitude ⟨digits * 10 ^ shift, exponent - shift⟩ = magnitude ⟨digits, exponent⟩ := by
  refine nearest_congr (quotient_pos _) (quotient_pos _) ?_
  -- Both quotients are compared in units small enough for either.
  obtain ⟨places, power, level⟩ : ∃ places power : Nat, exponent - shift + places = power :=
    ⟨exponent.natAbs + shift, (exponent + exponent.natAbs).toNat, by omega⟩
  have first := quotient_scaled ⟨digits * 10 ^ shift, exponent - shift⟩ level
  have second := quotient_scaled ⟨digits, exponent⟩
    (show exponent + (places : Int) = (shift + power : Nat) by omega)
  generalize quotient _ = q at first second ⊢
  generalize quotient _ = r at first second ⊢
  refine Nat.eq_of_mul_eq_mul_right (Nat.pow_pos (n := places) (show 0 < 10 by decide)) ?_
  calc q.1 * r.2 * 10 ^ places
      = q.1 * 10 ^ places * r.2 := Nat.mul_right_comm _ _ _
    _ = digits * 10 ^ shift * 10 ^ power * unit * q.2 * r.2 := by rw [first]
    _ = digits * 10 ^ (shift + power) * unit * r.2 * q.2 := by ring
    _ = r.1 * 10 ^ places * q.2 := by rw [second]
    _ = r.1 * q.2 * 10 ^ places := Nat.mul_right_comm _ _ _

theorem magnitude_trim (fuel : Nat) (d : Decimal) : (trim fuel d).magnitude = d.magnitude := by
  induction fuel generalizing d with
  | zero => rfl
  | succ fuel ih =>
      obtain ⟨digits, exponent⟩ := d
      by_cases zeros : digits % 10 = 0
      · have whole : digits / 10 * 10 ^ 1 = digits := by omega
        have shifted := magnitude_shift (digits / 10) 1 (exponent + 1)
        have lower : exponent + 1 - (1 : Nat) = exponent := by omega
        rw [whole, lower] at shifted
        simp only [trim, zeros, if_true, ih, shifted]
      · simp only [trim, zeros, if_false]

end Decimal

namespace Binary64

theorem magnitude_of_onGrid? {quanta : Nat} {exponent : Int} {d : Decimal}
    (found : onGrid? quanta exponent = some d) : d.magnitude = quanta := by
  simp only [onGrid?] at found
  generalize (if 0 ≤ exponent then _ else _ : Nat × Nat) = scaled at found
  split at found
  case isTrue below =>
      cases found
      exact eq_of_beq below.1
  case isFalse =>
      split at found
      case isTrue above =>
          cases found
          exact eq_of_beq above
      case isFalse => cases found

theorem magnitude_of_exact {d : Decimal} {quanta places : Nat} (exact : Representable quanta)
    (level : d.exponent + places = (0 : Nat))
    (whole : d.digits * unit = quanta * Nat.pow 10 places) : d.magnitude = quanta := by
  have scaled := d.quotient_scaled level
  rw [pow_zero, Nat.mul_one, whole, Nat.pow_eq, Nat.mul_right_comm] at scaled
  have same := Nat.eq_of_mul_eq_mul_right (Nat.pow_pos (by decide)) scaled
  rw [Decimal.magnitude, nearest_congr d.quotient_pos Nat.one_pos ((Nat.mul_one _).trans same)]
  exact nearest_of_representable exact

theorem magnitude_shortestFrom {quanta : Nat} (exact : Representable quanta) (fuel count : Nat) :
    (shortestFrom quanta fuel count).magnitude = quanta := by
  induction fuel generalizing count with
  | zero =>
      have powers : unit ∣ Nat.pow 10 1074 := Nat.dvd_of_mod_eq_zero (by decide +kernel)
      exact magnitude_of_exact exact rfl (Nat.div_mul_cancel (powers.mul_left quanta))
  | succ fuel ih =>
      rw [shortestFrom]
      cases found : onGrid? quanta (decimalPlace quanta - count) with
      | none => exact ih _
      | some d => exact magnitude_of_onGrid? found

/-- The decimal that is written for a magnitude is read as that magnitude. -/
theorem magnitude_shortest {quanta : Nat} (exact : Representable quanta) :
    (shortest quanta).magnitude = quanta := by
  rw [shortest, Decimal.magnitude_trim, magnitude_shortestFrom exact]

/-! ## The range of decimals -/

theorem ofQuotient_of_magnitude {d : Decimal} (exact : Representable d.magnitude)
    (negative : Bool) : ofQuotient negative d.quotient.1 d.quotient.2 =
      .finite negative d.magnitude exact :=
  dif_pos exact

theorem lt_pow_digitCount (digits : Nat) : digits < 10 ^ Decimal.digitCount digits :=
  (Nat.length_toDigits_le_iff (by decide) Nat.length_toDigits_pos).mp le_rfl

theorem pow_digitCount_le {digits : Nat} (nonzero : digits ≠ 0) :
    10 ^ (Decimal.digitCount digits - 1) ≤ digits := by
  by_cases single : Decimal.digitCount digits - 1 = 0
  · rw [single, pow_zero]
    omega
  · by_contra below
    have shorter := (Nat.length_toDigits_le_iff (b := 10) (by decide)
      (Nat.pos_of_ne_zero single)).mpr (Nat.lt_of_not_le below)
    change Decimal.digitCount digits ≤ _ at shorter
    omega

theorem le_quotient {d : Decimal} (nonzero : d.digits ≠ 0) (power : Nat)
    (far : power < Decimal.digitCount d.digits + d.exponent) :
    10 ^ power * unit * d.quotient.2 ≤ d.quotient.1 := by
  obtain ⟨places, above, level⟩ : ∃ places above : Nat, d.exponent + places = above :=
    ⟨d.exponent.natAbs, (d.exponent + d.exponent.natAbs).toNat, by omega⟩
  have scaled := d.quotient_scaled level
  have more : power + places ≤ Decimal.digitCount d.digits - 1 + above := by omega
  have least : 10 ^ (power + places) ≤ d.digits * 10 ^ above :=
    calc 10 ^ (power + places)
        ≤ 10 ^ (Decimal.digitCount d.digits - 1 + above) := Nat.pow_le_pow_right (by decide) more
      _ = 10 ^ (Decimal.digitCount d.digits - 1) * 10 ^ above := pow_add _ _ _
      _ ≤ d.digits * 10 ^ above := Nat.mul_le_mul_right _ (pow_digitCount_le nonzero)
  refine Nat.le_of_mul_le_mul_right ?_ (Nat.pow_pos (n := places) (show 0 < 10 by decide))
  calc 10 ^ power * unit * d.quotient.2 * 10 ^ places
      = 10 ^ (power + places) * unit * d.quotient.2 := by rw [pow_add]; ring
    _ ≤ d.digits * 10 ^ above * unit * d.quotient.2 := by gcongr
    _ = d.quotient.1 * 10 ^ places := scaled.symm

theorem quotient_lt {d : Decimal} (depth : Nat)
    (deep : Decimal.digitCount d.digits + d.exponent < -depth) :
    d.quotient.1 * 10 ^ depth < unit * d.quotient.2 := by
  obtain ⟨places, level⟩ : ∃ places : Nat, d.exponent + places = (0 : Nat) :=
    ⟨(-d.exponent).toNat, by omega⟩
  have scaled := d.quotient_scaled level
  have fewer : Decimal.digitCount d.digits + depth ≤ places := by omega
  have most : d.digits * 10 ^ depth < 10 ^ places :=
    calc d.digits * 10 ^ depth
        < 10 ^ Decimal.digitCount d.digits * 10 ^ depth := by
          gcongr
          exact lt_pow_digitCount _
      _ = 10 ^ (Decimal.digitCount d.digits + depth) := (pow_add _ _ _).symm
      _ ≤ 10 ^ places := Nat.pow_le_pow_right (by decide) fewer
  have room : 0 < unit * d.quotient.2 := Nat.mul_pos unit_pos d.quotient_pos
  rw [pow_zero, Nat.mul_one] at scaled
  refine Nat.lt_of_mul_lt_mul_right (a := 10 ^ places) ?_
  calc d.quotient.1 * 10 ^ depth * 10 ^ places
      = d.quotient.1 * 10 ^ places * 10 ^ depth := Nat.mul_right_comm _ _ _
    _ = d.digits * 10 ^ depth * (unit * d.quotient.2) := by rw [scaled]; ring
    _ < 10 ^ places * (unit * d.quotient.2) := Nat.mul_lt_mul_of_pos_right most room
    _ = unit * d.quotient.2 * 10 ^ places := Nat.mul_comm _ _

/-- A decimal with more places before its point is beyond all magnitudes. -/
theorem place_le_of_magnitude {d : Decimal} (nonzero : d.digits ≠ 0)
    (exact : Representable d.magnitude) : Decimal.digitCount d.digits + d.exponent ≤ 310 := by
  by_contra far
  have finite : (ofQuotient false d.quotient.1 d.quotient.2).isFinite = true := by
    rw [ofQuotient_of_magnitude exact]
    rfl
  have below := (isFinite_ofQuotient_iff d.quotient_pos false).mp finite
  have beyond : limit ≤ 10 ^ 310 * unit := by decide +kernel
  have reached := le_quotient nonzero 310 (by omega)
  exact absurd below (Nat.not_lt.mpr ((Nat.mul_le_mul_right _ beyond).trans reached))

/-- A decimal with more zeros behind its point is less than half a quantum. -/
theorem le_place_of_magnitude {d : Decimal} (positive : 0 < d.magnitude) :
    -330 ≤ Decimal.digitCount d.digits + d.exponent := by
  by_contra deep
  have half : 2 * unit ≤ 10 ^ 330 := by decide +kernel
  have small := quotient_lt (d := d) 330 (by omega)
  have tiny : 2 * d.quotient.1 < d.quotient.2 := by
    refine Nat.lt_of_mul_lt_mul_left (a := unit) ?_
    calc unit * (2 * d.quotient.1)
        = d.quotient.1 * (2 * unit) := by rw [Nat.mul_left_comm, Nat.mul_comm unit]; ring
      _ ≤ d.quotient.1 * 10 ^ 330 := Nat.mul_le_mul_left _ half
      _ < unit * d.quotient.2 := small
  rw [Decimal.magnitude, nearest_eq_zero tiny] at positive
  exact Nat.lt_irrefl _ positive

theorem digits_ne_zero_of_magnitude {d : Decimal} (positive : 0 < d.magnitude) :
    d.digits ≠ 0 := by
  intro none
  have empty : d.quotient.1 = 0 := by
    unfold Decimal.quotient
    split <;> simp [none]
  rw [Decimal.magnitude, nearest_eq_zero (by rw [empty]; exact d.quotient_pos)] at positive
  exact Nat.lt_irrefl _ positive

theorem ofDecimal_of_magnitude {d : Decimal} (negative : Bool) (exact : Representable d.magnitude)
    (positive : 0 < d.magnitude) :
    ofDecimal negative d = .finite negative d.magnitude exact := by
  have nonzero := digits_ne_zero_of_magnitude positive
  have high := place_le_of_magnitude nonzero exact
  have low := le_place_of_magnitude positive
  simp only [ofDecimal, nonzero, if_false, Int.not_lt.mpr high, Int.not_lt.mpr low]
  exact ofQuotient_of_magnitude exact negative

end Binary64

end NextOffer
