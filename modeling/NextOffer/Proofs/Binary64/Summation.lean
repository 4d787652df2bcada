import Mathlib.Algebra.BigOperators.Ring.List
import Mathlib.Algebra.Order.BigOperators.Group.List
import Mathlib.Algebra.Ring.Int.Defs
import Mathlib.Data.List.Permutation
import NextOffer.Proofs.Binary64.Range

/-! # Sums of floating point values

A sum is rounded after each of its parts, so in general it depends on their order. It does not
when at most two parts are other than zero, nor when all parts are multiples of one step that
add up to fewer than 2^53 steps in size: then no sum of some of them is rounded at all.
-/

namespace NextOffer.Binary64

/-- The sum of values, added up in order from zero. -/
def total (parts : List Binary64) : Binary64 := parts.foldl add (zero false)

theorem add_comm (x y : Binary64) : x.add y = y.add x := by
  cases x with
  | nan => cases y <;> rfl
  | infinity negative =>
      cases y with
      | nan | finite => rfl
      | infinity negative' => cases negative <;> cases negative' <;> rfl
  | finite negative size exact =>
      cases y with
      | nan | infinity => rfl
      | finite negative' size' exact' => rw [add, add, Bool.and_comm, Int.add_comm]

theorem ofQuanta_signed {size : Nat} (exact : Representable size) (positive : 0 < size)
    (negativeZero negative : Bool) :
    ofQuanta negativeZero (signed negative size) = .finite negative size exact := by
  have nonzero : signed negative size ≠ 0 := by
    intro zero
    have := natAbs_signed negative size
    rw [zero] at this
    omega
  have sign : decide (signed negative size < 0) = negative := by
    cases negative
    · simp [signed]
    · simp [signed, positive]
  simp only [ofQuanta, if_neg nonzero, sign, natAbs_signed, ofQuotient,
    nearest_of_representable exact, exact, dif_pos]

/-! ## Zeros -/

theorem add_zero {sum part : Binary64} (signless : sum ≠ zero true)
    (none : part.isZero = true) : sum.add part = sum := by
  cases part with
  | nan | infinity => cases none
  | finite negative size exact =>
      obtain rfl : size = 0 := by simpa [isZero] using none
      have nothing : signed negative 0 = 0 := by cases negative <;> rfl
      cases sum with
      | nan | infinity => rfl
      | finite negative' size' exact' =>
          rw [add, nothing, Int.add_zero]
          rcases Nat.eq_zero_or_pos size' with rfl | positive
          · cases negative' with
            | false => rfl
            | true => exact absurd rfl signless
          · exact ofQuanta_signed exact' positive _ negative'

theorem add_ne_negative_zero {sum : Binary64} (signless : sum ≠ zero true) (part : Binary64) :
    sum.add part ≠ zero true := by
  intro reached
  cases sum with
  | nan => cases part <;> cases reached
  | infinity negative =>
      cases part with
      | nan | finite => cases reached
      | infinity negative' =>
          rw [add] at reached
          split at reached <;> cases reached
  | finite negative size exact =>
      cases part with
      | nan | infinity => cases reached
      | finite negative' size' exact' =>
          rw [add] at reached
          have none : signed negative size + signed negative' size' = 0 :=
            (isZero_ofQuanta_iff _ _).mp (by rw [reached]; rfl)
          rw [none] at reached
          cases negative with
          | false => cases reached
          | true =>
              cases negative' with
              | false => cases reached
              | true =>
                  simp only [signed, if_true] at none
                  obtain rfl : size = 0 := by omega
                  exact signless rfl

theorem foldl_add_filter (parts : List Binary64) {start : Binary64}
    (signless : start ≠ zero true) :
    parts.foldl add start = (parts.filter fun part => !part.isZero).foldl add start := by
  induction parts generalizing start with
  | nil => rfl
  | cons part rest ih =>
      rw [List.foldl_cons, ih (add_ne_negative_zero signless part)]
      cases none : part.isZero with
      | true => rw [List.filter_cons_of_neg (by simp [none]), add_zero signless none]
      | false => rw [List.filter_cons_of_pos (by simp [none]), List.foldl_cons]

theorem total_filter (parts : List Binary64) :
    total parts = total (parts.filter fun part => !part.isZero) :=
  foldl_add_filter parts (by decide)

theorem zero_add {part : Binary64} (some : part.isZero = false) :
    (zero false).add part = part := by
  cases part with
  | nan | infinity => rfl
  | finite negative size exact =>
      have positive : 0 < size := Nat.pos_of_ne_zero (by simpa [isZero] using some)
      have nothing : signed false 0 = 0 := rfl
      rw [zero, add, nothing, Int.zero_add]
      exact ofQuanta_signed exact positive _ negative

theorem total_perm_of_length_le {parts others : List Binary64} (same : parts.Perm others)
    (nonzero : ∀ part ∈ parts, part.isZero = false) (few : parts.length ≤ 2) :
    total parts = total others := by
  rcases parts with _ | ⟨first, _ | ⟨second, _ | ⟨third, rest⟩⟩⟩
  · rw [List.nil_perm.mp same]
  · rw [List.singleton_perm.mp same]
  · obtain rfl | rfl := List.perm_pair.mp same.symm
    · rfl
    · have one := zero_add (nonzero first (by simp))
      have other := zero_add (nonzero second (by simp))
      simp only [total, List.foldl_cons, List.foldl_nil, one, other]
      exact add_comm first second
  · simp at few

/-! ## Whole steps -/

/-- The signed quanta of a finite value; the others have none. -/
def quanta : Binary64 → Int
  | .finite negative size _ => signed negative size
  | _ => 0

/-- The sum of all parts, rounded once. -/
def exactTotal (parts : List Binary64) : Binary64 :=
  if .nan ∈ parts ∨ (.infinity false ∈ parts ∧ .infinity true ∈ parts) then .nan
  else if .infinity false ∈ parts then .infinity false
  else if .infinity true ∈ parts then .infinity true
  else ofQuanta false (parts.map quanta).sum

theorem exactTotal_perm {parts others : List Binary64} (same : parts.Perm others) :
    exactTotal parts = exactTotal others := by
  simp only [exactTotal, same.mem_iff, (same.map quanta).sum_eq]

/-- All parts are multiples of a power of two, and together fewer than 2^53 of it in size. -/
structure Aligned (step : Nat) (parts : List Binary64) : Prop where
  range : step ≤ 2045
  multiples : ∀ part ∈ parts, ((2 ^ step : Nat) : Int) ∣ part.quanta
  small : (parts.map fun part => part.quanta.natAbs).sum < 2 ^ (step + 53)

theorem Aligned.perm {step : Nat} {parts others : List Binary64} (aligned : Aligned step parts)
    (same : parts.Perm others) : Aligned step others where
  range := aligned.range
  multiples part member := aligned.multiples part (same.mem_iff.mpr member)
  small := by
    rw [← (same.map fun part => part.quanta.natAbs).sum_eq]
    exact aligned.small

theorem Aligned.front {step : Nat} {front rest : List Binary64}
    (aligned : Aligned step (front ++ rest)) : Aligned step front where
  range := aligned.range
  multiples part member := aligned.multiples part (List.mem_append_left rest member)
  small := by
    have small := aligned.small
    rw [List.map_append, List.sum_append] at small
    omega

theorem representable_of_dvd {step size : Nat} (range : step ≤ 2045) (multiple : 2 ^ step ∣ size)
    (small : size < 2 ^ (step + 53)) : Representable size := by
  constructor
  · exact small.trans_le (Nat.pow_le_pow_right (by decide) (by omega))
  · rcases Nat.eq_zero_or_pos size with rfl | positive
    · exact Nat.zero_mod _
    · have bits : size.log2 < step + 53 := (Nat.log2_lt positive.ne').mpr small
      exact Nat.mod_eq_zero_of_dvd ((pow_dvd_pow 2 (by omega)).trans multiple)

theorem natAbs_sum_le (numbers : List Int) :
    numbers.sum.natAbs ≤ (numbers.map Int.natAbs).sum := by
  induction numbers with
  | nil => exact Nat.le_refl _
  | cons number rest ih =>
      simp only [List.sum_cons, List.map_cons]
      exact (Int.natAbs_add_le _ _).trans (Nat.add_le_add_left ih _)

theorem Aligned.representable {step : Nat} {parts : List Binary64} (aligned : Aligned step parts) :
    Representable (parts.map quanta).sum.natAbs := by
  have multiple : ((2 ^ step : Nat) : Int) ∣ (parts.map quanta).sum :=
    List.dvd_sum (List.forall_mem_map.mpr aligned.multiples)
  have size := natAbs_sum_le (parts.map quanta)
  rw [List.map_map] at size
  exact representable_of_dvd aligned.range (Int.natCast_dvd.mp multiple)
    (size.trans_lt aligned.small)

theorem ofQuanta_of_representable {sum : Int} (exact : Representable sum.natAbs) :
    ofQuanta false sum = .finite (decide (sum < 0)) sum.natAbs exact := by
  by_cases none : sum = 0
  · subst none
    rfl
  · simp only [ofQuanta, if_neg none, ofQuotient, nearest_of_representable exact, exact, dif_pos]

theorem ofQuanta_add {sum : Int} (exact : Representable sum.natAbs) (negative : Bool) (size : Nat)
    (exact' : Representable size) :
    (ofQuanta false sum).add (.finite negative size exact') =
      ofQuanta false (sum + signed negative size) := by
  rw [ofQuanta_of_representable exact, add, signed_natAbs]
  -- Only a sum of zero has a choice of signs, and its parts cannot both be negative.
  by_cases none : sum + signed negative size = 0
  · have sign : (decide (sum < 0) && negative) = false := by
      cases negative with
      | false => exact Bool.and_false _
      | true =>
          simp only [signed, if_true] at none
          simp only [Bool.and_true, decide_eq_false_iff_not]
          omega
    rw [sign]
  · rw [ofQuanta, ofQuanta, if_neg none, if_neg none]

theorem exactTotal_append {parts : List Binary64} {part : Binary64}
    (exact : Representable (parts.map quanta).sum.natAbs) :
    (exactTotal parts).add part = exactTotal (parts ++ [part]) := by
  have sum : ((parts ++ [part]).map quanta).sum = (parts.map quanta).sum + part.quanta := by
    simp
  have finite := ofQuanta_of_representable exact
  simp only [exactTotal, sum, List.mem_append, List.mem_singleton]
  by_cases missing : nan ∈ parts
  · simp [missing, add]
  cases part with
  | nan =>
      rw [add_comm]
      simp [add]
  | infinity negative =>
      cases negative <;> by_cases up : infinity false ∈ parts <;>
        by_cases down : infinity true ∈ parts <;> simp [missing, up, down, add, finite]
  | finite negative size exact' =>
      have joined := ofQuanta_add exact negative size exact'
      by_cases up : infinity false ∈ parts <;> by_cases down : infinity true ∈ parts <;>
        simp [missing, up, down, joined, quanta] <;> rfl

theorem Aligned.foldl_add {step : Nat} {front rest : List Binary64}
    (aligned : Aligned step (front ++ rest)) :
    rest.foldl add (exactTotal front) = exactTotal (front ++ rest) := by
  induction rest generalizing front with
  | nil => rw [List.foldl_nil, List.append_nil]
  | cons part rest ih =>
      rw [List.append_cons front part rest] at aligned ⊢
      rw [List.foldl_cons, exactTotal_append aligned.front.front.representable]
      exact ih aligned

/-- Values that have one sum, in whatever order they are added up. -/
def Steady (parts : List Binary64) : Prop :=
  (parts.filter fun part => !part.isZero).length ≤ 2 ∨ ∃ step, Aligned step parts

theorem Steady.total_perm {parts others : List Binary64} (steady : Steady parts)
    (same : parts.Perm others) : total parts = total others := by
  obtain few | ⟨step, aligned⟩ := steady
  · rw [total_filter parts, total_filter others]
    exact total_perm_of_length_le (same.filter _) (by simp) few
  · have sum := @Aligned.foldl_add step [] parts aligned
    have sum' := @Aligned.foldl_add step [] others (aligned.perm same)
    exact sum.trans ((exactTotal_perm same).trans sum'.symm)

/-! ## Integers -/

theorem exists_unit : ∃ scale ≤ 2045, unit = 2 ^ scale := ⟨1074, by decide, rfl⟩

theorem representable_mul_unit {n : Int} (small : n.natAbs < 2 ^ 53) :
    Representable (n * unit).natAbs := by
  obtain ⟨scale, range, same⟩ := exists_unit
  rw [Int.natAbs_mul, Int.natAbs_natCast, same]
  refine representable_of_dvd range (Nat.dvd_mul_left _ _) ?_
  rw [Nat.add_comm, pow_add]
  exact Nat.mul_lt_mul_of_pos_right small (Nat.two_pow_pos scale)

theorem ofInt_of_small {n : Int} (small : n.natAbs < 2 ^ 53) :
    ofInt? n = .ok (ofInt n) ∧ (ofInt n).quanta = n * unit := by
  have finite : ofInt n = _ := ofQuanta_of_representable (representable_mul_unit small)
  constructor
  · rw [ofInt?, finite]
  · rw [finite, quanta, signed_natAbs]

/-- Integers that add up to less than 2^53 in size are added without rounding. -/
theorem steady_ofInt {numbers : List Int} (small : (numbers.map Int.natAbs).sum < 2 ^ 53) :
    Steady (numbers.map ofInt) := by
  have each : ∀ n ∈ numbers, (ofInt n).quanta = n * unit := fun n member =>
    (ofInt_of_small ((List.le_sum_of_mem (List.mem_map_of_mem member)).trans_lt small)).2
  obtain ⟨scale, range, same⟩ := exists_unit
  refine .inr ⟨scale, range, ?_, ?_⟩
  · rw [List.forall_mem_map]
    intro n member
    rw [each n member, same]
    exact Int.dvd_mul_left _ _
  · have sizes : (numbers.map ofInt).map (fun part => part.quanta.natAbs) =
        (numbers.map Int.natAbs).map fun size => size * 2 ^ scale := by
      rw [List.map_map, List.map_map]
      refine List.map_congr_left fun n member => ?_
      simp only [Function.comp_apply, each n member, Int.natAbs_mul, Int.natAbs_natCast, same]
    rw [sizes, List.sum_map_mul_right, List.map_id', Nat.add_comm, pow_add]
    exact Nat.mul_lt_mul_of_pos_right small (Nat.two_pow_pos scale)

end NextOffer.Binary64
