import Mathlib.Algebra.Order.Ring.Nat
import Mathlib.Tactic.Linarith
import Mathlib.Tactic.Ring
import NextOffer.Number

/-! # The range of floating point values

Rounding moves a magnitude by at most one step, so it stays within the powers of two around
it: only the last binade needs a closer look, and there the bound is halfway between the
largest finite value and the next power of two. An integer at or past that bound is what no
floating point value can hold.
-/

namespace NextOffer

/-- Rounding stays below an even bound as long as the quotient is closer to what lies below
    it than to the bound; a half goes up, to the bound. -/
theorem roundDiv_lt_iff {num den bound : Nat} (pos : 0 < den) (even : bound % 2 = 0) :
    roundDiv num den < bound ↔ 2 * num + den < 2 * bound * den := by
  obtain ⟨whole, rest, small, rfl⟩ : ∃ whole rest, rest < den ∧ num = den * whole + rest :=
    ⟨num / den, num % den, Nat.mod_lt _ pos, (Nat.div_add_mod num den).symm⟩
  have quotient : (den * whole + rest) / den = whole := by
    rw [Nat.mul_add_div pos, Nat.div_eq_of_lt small, Nat.add_zero]
  have remainder : (den * whole + rest) % den = rest := by
    rw [Nat.mul_add_mod, Nat.mod_eq_of_lt small]
  simp only [roundDiv, quotient, remainder]
  rcases Nat.lt_trichotomy (whole + 1) bound with below | last | above
  · have room : (whole + 2) * den ≤ bound * den := Nat.mul_le_mul_right den below
    constructor
    · intro _
      nlinarith
    · intro _
      split_ifs <;> omega
  · -- The whole part is odd here, so an exact half goes up.
    subst last
    have odd : ¬ whole % 2 = 0 := by omega
    have exact_half : 2 * (den * whole + rest) + den < 2 * (whole + 1) * den ↔
        2 * rest < den := by
      constructor <;> intro h <;> nlinarith
    rw [exact_half]
    split_ifs <;> omega
  · have full : bound * den ≤ whole * den := Nat.mul_le_mul_right den (by omega)
    constructor
    · intro h
      exfalso
      split_ifs at h <;> omega
    · intro h
      nlinarith

namespace Binary64

variable {num den : Nat}

theorem nearest_le_two_pow (num den : Nat) : nearest num den ≤ 2 ^ ((num / den).log2 + 1) := by
  have steps : 2 ^ ((num / den).log2 + 1 - ((num / den).log2 - 52)) *
      2 ^ ((num / den).log2 - 52) = 2 ^ ((num / den).log2 + 1) := pow_sub_mul_pow 2 (by omega)
  have whole : num / (den * 2 ^ ((num / den).log2 - 52)) <
      2 ^ ((num / den).log2 + 1 - ((num / den).log2 - 52)) := by
    rw [← Nat.div_div_eq_div_mul, Nat.div_lt_iff_lt_mul (by positivity), steps]
    exact Nat.lt_log2_self
  have rounded := roundDiv_le_div_add_one num (den * 2 ^ ((num / den).log2 - 52))
  rw [← steps]
  exact Nat.mul_le_mul_right _ (rounded.trans whole)

theorem two_pow_le_nearest (large : num / den ≠ 0) : 2 ^ (num / den).log2 ≤ nearest num den := by
  have steps : 2 ^ ((num / den).log2 - ((num / den).log2 - 52)) * 2 ^ ((num / den).log2 - 52) =
      2 ^ (num / den).log2 := pow_sub_mul_pow 2 (by omega)
  have whole : 2 ^ ((num / den).log2 - ((num / den).log2 - 52)) ≤
      num / (den * 2 ^ ((num / den).log2 - 52)) := by
    rw [← Nat.div_div_eq_div_mul, Nat.le_div_iff_mul_le (by positivity), steps]
    exact Nat.log2_self_le large
  have rounded := div_le_roundDiv num (den * 2 ^ ((num / den).log2 - 52))
  rw [← steps]
  exact Nat.mul_le_mul_right _ (whole.trans rounded)

/-- Rounding gives 53 significant bits, however large the magnitude is. -/
theorem nearest_mod_step (num den : Nat) :
    nearest num den % 2 ^ ((nearest num den).log2 - 52) = 0 := by
  rcases (nearest_le_two_pow num den).eq_or_lt with top | below
  · rw [top, Nat.log2_two_pow]
    exact Nat.mod_eq_zero_of_dvd (pow_dvd_pow 2 (by omega))
  · by_cases zero : nearest num den = 0
    · rw [zero, Nat.zero_mod]
    · have order : (nearest num den).log2 < (num / den).log2 + 1 :=
        (Nat.log2_lt zero).mpr below
      have step : 2 ^ ((nearest num den).log2 - 52) ∣ 2 ^ ((num / den).log2 - 52) :=
        pow_dvd_pow 2 (by omega)
      exact Nat.mod_eq_zero_of_dvd (step.trans (Nat.dvd_mul_left _ _))

/-- Rounding reaches a power of two from the middle of the last step below it. -/
theorem nearest_lt_two_pow_iff (pos : 0 < den) (half top : Nat) (binade : top = half + 54) :
    nearest num den < Nat.pow 2 top ↔ num + Nat.pow 2 half * den < Nat.pow 2 top * den := by
  subst binade
  change nearest num den < 2 ^ (half + 54) ↔ num + 2 ^ half * den < 2 ^ (half + 54) * den
  have unit : 0 < 2 ^ half * den := by positivity
  have scale : 2 ^ (half + 54) * den = 2 ^ 54 * (2 ^ half * den) := by ring
  rcases Nat.lt_trichotomy (num / den).log2 (half + 53) with low | last | high
  · have next : 2 ^ ((num / den).log2 + 1) ≤ 2 ^ (half + 53) :=
      Nat.pow_le_pow_right (by decide) low
    have magnitude : num < 2 ^ (half + 53) * den :=
      (Nat.div_lt_iff_lt_mul pos).mp (Nat.lt_log2_self.trans_le next)
    have below : 2 ^ (half + 53) < 2 ^ (half + 54) := Nat.pow_lt_pow_right (by decide) (by omega)
    have smaller : 2 ^ (half + 53) * den = 2 ^ 53 * (2 ^ half * den) := by ring
    rw [smaller] at magnitude
    rw [scale]
    constructor
    · intro _
      omega
    · intro _
      exact ((nearest_le_two_pow num den).trans next).trans_lt below
  · have steps : nearest num den = roundDiv num (den * 2 ^ (half + 1)) * 2 ^ (half + 1) := by
      simp only [nearest, last]
      rfl
    have top : 2 ^ (half + 54) = 2 ^ 53 * 2 ^ (half + 1) := by ring
    have step : den * 2 ^ (half + 1) = 2 * (2 ^ half * den) := by ring
    rw [steps, scale, top, Nat.mul_lt_mul_right (by positivity),
      roundDiv_lt_iff (by positivity) (by decide), step]
    omega
  · have nonzero : num / den ≠ 0 := by
      intro zero
      simp [zero] at high
    have next : 2 ^ (half + 54) ≤ 2 ^ (num / den).log2 := Nat.pow_le_pow_right (by decide) high
    have magnitude : 2 ^ (half + 54) * den ≤ num :=
      (Nat.le_div_iff_mul_le pos).mp (next.trans (Nat.log2_self_le nonzero))
    have reached := next.trans (two_pow_le_nearest nonzero)
    omega

theorem representable_nearest_iff :
    Representable (nearest num den) ↔ nearest num den < Nat.pow 2 2098 :=
  ⟨And.left, fun small => ⟨small, nearest_mod_step num den⟩⟩

private theorem nearest_mul_two_pow_lt_iff (size half top scale quanta : Nat)
    (binade : top = half + 54) (scaled : quanta = top + scale) :
    nearest (size * Nat.pow 2 scale) 1 < Nat.pow 2 quanta ↔
      size + Nat.pow 2 half < Nat.pow 2 top := by
  rw [nearest_lt_two_pow_iff Nat.one_pos (half + scale) quanta (by omega), scaled]
  change size * 2 ^ scale + 2 ^ (half + scale) * 1 < 2 ^ (top + scale) * 1 ↔
    size + 2 ^ half < 2 ^ top
  rw [pow_add, pow_add, Nat.mul_one, Nat.mul_one, ← Nat.add_mul,
    Nat.mul_lt_mul_right (by positivity)]

/-- Integers that no floating point value is near. -/
def Oversized (n : Int) : Prop := Nat.pow 2 1024 - Nat.pow 2 970 ≤ n.natAbs

theorem oversized_iff (n : Int) :
    Oversized n ↔ ¬ Representable (nearest (n * unit).natAbs 1) := by
  have quanta : nearest (n.natAbs * unit) 1 < Nat.pow 2 2098 ↔
      n.natAbs + Nat.pow 2 970 < Nat.pow 2 1024 :=
    nearest_mul_two_pow_lt_iff n.natAbs 970 1024 1074 2098 rfl rfl
  rw [Int.natAbs_mul, Int.natAbs_natCast, representable_nearest_iff, quanta, Nat.not_lt, Oversized]
  exact Nat.sub_le_iff_le_add

/-- Conversion of an integer fails exactly for those that are oversized. -/
theorem ofInt?_eq_error_iff {n : Int} {fault : ArithmeticFault} :
    ofInt? n = .error fault ↔ fault = .integerTooLarge ∧ Oversized n := by
  rw [oversized_iff]
  by_cases zero : n * unit = 0
  · have value : ofInt n = Binary64.zero false := if_pos zero
    have representable : Representable (nearest (n * unit).natAbs 1) := by
      rw [zero]
      decide +kernel
    simp only [ofInt?, value, Binary64.zero, representable, reduceCtorEq, not_true_eq_false,
      and_false]
  · have value : ofInt n = ofQuotient (decide (n * unit < 0)) (n * unit).natAbs 1 := if_neg zero
    by_cases representable : Representable (nearest (n * unit).natAbs 1)
    · rw [ofInt?, value, ofQuotient, dif_pos representable]
      simp only [representable, reduceCtorEq, not_true_eq_false, and_false]
    · rw [ofInt?, value, ofQuotient, dif_neg representable]
      simp only [representable, Except.error.injEq, not_false_eq_true, and_true, eq_comm]

/-- From this magnitude on, in quanta, rounding gives an infinity. -/
def limit : Nat := Nat.pow 2 2098 - Nat.pow 2 2044

theorem nearest_of_representable {quanta : Nat} (exact : Representable quanta) :
    nearest quanta 1 = quanta := by
  have steps : 0 < Nat.pow 2 (quanta.log2 - 52) := Nat.two_pow_pos _
  have whole : quanta / Nat.pow 2 (quanta.log2 - 52) * Nat.pow 2 (quanta.log2 - 52) = quanta :=
    Nat.div_mul_cancel (Nat.dvd_of_mod_eq_zero exact.2)
  have rounded := roundDiv_of_mul (quanta / Nat.pow 2 (quanta.log2 - 52)) _ steps
  rw [whole] at rounded
  simp only [nearest, Nat.div_one, Nat.one_mul, rounded, whole]

theorem add_step_le {quanta : Nat} (step top : Nat) (binade : top = step + 53)
    (below : quanta < Nat.pow 2 top) (exact : quanta % Nat.pow 2 (quanta.log2 - 52) = 0) :
    quanta + Nat.pow 2 step ≤ Nat.pow 2 top := by
  subst binade
  change quanta < 2 ^ (step + 53) at below
  change quanta % 2 ^ (quanta.log2 - 52) = 0 at exact
  change quanta + 2 ^ step ≤ 2 ^ (step + 53)
  by_cases last : quanta.log2 = step + 52
  · rw [last, Nat.add_sub_cancel] at exact
    obtain ⟨whole, rfl⟩ := Nat.dvd_of_mod_eq_zero exact
    rw [pow_add, Nat.mul_lt_mul_left (by positivity)] at below
    rw [pow_add, ← Nat.mul_succ]
    exact Nat.mul_le_mul_left _ below
  · by_cases zero : quanta = 0
    · rw [zero, Nat.zero_add]
      exact Nat.pow_le_pow_right (by decide) (by omega)
    · have order : quanta.log2 < step + 53 := (Nat.log2_lt zero).mpr below
      have half : quanta < 2 ^ (step + 52) := (Nat.log2_lt zero).mp (by omega)
      have smaller : 2 ^ step ≤ 2 ^ (step + 52) := Nat.pow_le_pow_right (by decide) (by omega)
      have double : 2 ^ (step + 53) = 2 * 2 ^ (step + 52) := by ring
      omega

theorem isFinite_ofQuotient_iff (pos : 0 < den) (negative : Bool) :
    (ofQuotient negative num den).isFinite = true ↔ num < limit * den := by
  have finite : (ofQuotient negative num den).isFinite = true ↔
      Representable (nearest num den) := by
    unfold ofQuotient
    split <;> simp_all [isFinite]
  have below := @nearest_lt_two_pow_iff num den pos 2044 2098 rfl
  rw [finite, representable_nearest_iff, below, limit, Nat.sub_mul, Nat.lt_sub_iff_add_lt]

theorem representable_add_unit_lt {quanta : Nat} (exact : Representable quanta) :
    quanta + 2 * unit < limit := by
  have room := add_step_le 2045 2098 rfl exact.1 exact.2
  have steps : 2 * unit + Nat.pow 2 2044 < Nat.pow 2 2045 := by decide +kernel
  rw [limit, Nat.lt_sub_iff_add_lt]
  calc quanta + 2 * unit + Nat.pow 2 2044
      = quanta + (2 * unit + Nat.pow 2 2044) := Nat.add_assoc _ _ _
    _ < quanta + Nat.pow 2 2045 := Nat.add_lt_add_left steps _
    _ ≤ Nat.pow 2 2098 := room

theorem unit_pos : 0 < unit := by decide +kernel

theorem eq_finite_or_infinity (negative : Bool) (num den : Nat) :
    (∃ exact, ofQuotient negative num den = .finite negative (nearest num den) exact) ∨
      ofQuotient negative num den = .infinity negative := by
  unfold ofQuotient
  split
  case isTrue exact => exact .inl ⟨exact, rfl⟩
  case isFalse => exact .inr rfl

theorem exists_of_isFinite {x : Binary64} (finite : x.isFinite = true) :
    ∃ negative quanta exact, x = .finite negative quanta exact := by
  cases x with
  | finite negative quanta exact => exact ⟨negative, quanta, exact, rfl⟩
  | nan | infinity _ => cases finite

theorem isFinite_ofQuanta_iff (negativeZero : Bool) (quanta : Int) :
    (ofQuanta negativeZero quanta).isFinite = true ↔ quanta.natAbs < limit := by
  have room : 0 < limit := Nat.zero_lt_of_lt (representable_add_unit_lt representable_zero)
  unfold ofQuanta
  split
  case isTrue zero => simp [zero, Binary64.zero, isFinite, room]
  case isFalse => rw [isFinite_ofQuotient_iff Nat.one_pos, Nat.mul_one]

theorem isZero_ofQuanta_iff (negativeZero : Bool) (quanta : Int) :
    (ofQuanta negativeZero quanta).isZero = true ↔ quanta = 0 := by
  unfold ofQuanta
  split
  case isTrue zero => simp [zero, Binary64.zero, isZero]
  case isFalse nonzero =>
      have large : quanta.natAbs / 1 ≠ 0 := by simpa using nonzero
      have positive : 0 < nearest quanta.natAbs 1 :=
        (Nat.two_pow_pos _).trans_le (two_pow_le_nearest large)
      rcases eq_finite_or_infinity (decide (quanta < 0)) quanta.natAbs 1 with ⟨_, same⟩ | same <;>
        rw [same] <;> simp [isZero, nonzero, positive.ne']

theorem natAbs_signed (negative : Bool) (quanta : Nat) :
    (signed negative quanta).natAbs = quanta := by
  cases negative <;> simp [signed]

theorem signed_natAbs (quanta : Int) : signed (decide (quanta < 0)) quanta.natAbs = quanta := by
  by_cases below : quanta < 0 <;> simp only [signed, below, decide_true, decide_false, if_true,
    if_false, Bool.false_eq_true] <;> omega

/-- A floor has at most one more than the whole part of its magnitude. -/
theorem natAbs_floor_mul_unit_le (negative : Bool) (quanta : Nat) :
    (signed negative quanta / unit).natAbs * unit ≤ quanta + unit := by
  have pos : (0 : Int) < unit := Int.natCast_pos.mpr unit_pos
  have below := Int.ediv_mul_le (signed negative quanta) pos.ne'
  have above := Int.lt_ediv_add_one_mul_self (signed negative quanta) pos
  have size := natAbs_signed negative quanta
  generalize signed negative quanta / unit = whole at *
  generalize signed negative quanta = value at *
  rw [Int.add_mul, Int.one_mul] at above
  zify
  rcases abs_cases whole with ⟨same, _⟩ | ⟨opposite, _⟩
  · rw [same]
    omega
  · rw [opposite, neg_mul]
    omega

theorem ofInt?_natCast {n : Nat} (exact : Representable (n * unit)) :
    ofInt? n = .ok (.finite false (n * unit) exact) := by
  have quanta : (n : Int) * (unit : Int) = ((n * unit : Nat) : Int) := rfl
  have value : ofInt n = .finite false (n * unit) exact := by
    unfold ofInt ofQuanta
    rw [quanta]
    generalize n * unit = size at *
    split
    case isTrue zero =>
        obtain rfl := Int.ofNat_eq_zero.mp zero
        rfl
    case isFalse =>
        simp only [Int.natAbs_natCast, ofQuotient, nearest_of_representable exact, exact, dif_pos]
        simp
  rw [ofInt?, value]

end Binary64

end NextOffer
