import NextOffer.Proofs.Number
import NextOffer.Proofs.Ranking.Scoring
import NextOffer.Ranking.Basic

/-! # When a ranking fails

A score is a sum that is scaled, shifted by a half, floored and divided again. Each weighted
score has to become a floating point value first, and a finite sum has to stay finite when it
is scaled; what happens afterwards cannot fail any more. The lines about required scores fail
on numbers that cannot be written. One product without a score is enough for the whole catalog
to have no ranking.
-/

namespace NextOffer

namespace Product

theorem tenTo_exact {precision : Int} (low : 0 ≤ precision) (high : precision ≤ 6) :
    ∃ exact, (Number.tenTo precision).toBinary64? =
      .ok (.finite false (Nat.pow 10 precision.toNat * Binary64.unit) exact) := by
  have exact : ∀ power < 7, Representable (Nat.pow 10 power * Binary64.unit) := by decide +kernel
  have representable := exact precision.toNat (by omega)
  refine ⟨representable, ?_⟩
  rw [Number.tenTo, if_pos low]
  exact Binary64.ofInt?_natCast representable

theorem half_eq : ∃ exact, half = .finite false (Nat.pow 2 1073) exact :=
  ⟨by decide +kernel, by decide +kernel⟩

theorem add_half_returns (negative : Bool) (quanta : Nat) (exact : Representable quanta) :
    ∃ negative' quanta' exact',
      (Binary64.finite negative quanta exact).add half = .finite negative' quanta' exact' := by
  obtain ⟨exactHalf, same⟩ := half_eq
  apply Binary64.exists_of_isFinite
  rw [same, Binary64.add, Binary64.isFinite_ofQuanta_iff]
  have room := Binary64.representable_add_unit_lt exact
  have small : Nat.pow 2 1073 < Binary64.unit := by decide +kernel
  generalize Nat.pow 2 1073 = half at *
  have size : (Binary64.signed negative quanta + Binary64.signed false half).natAbs ≤
      quanta + half := by
    cases negative <;> simp only [Binary64.signed] <;> omega
  omega

/-- The rounding of a sum that has been scaled: a half is added, and the floor divided again. -/
def settle (precision : Int) (scaled : Binary64) : Except ArithmeticFault Binary64 :=
  (scaled.add half).floor? >>= fun whole => (Number.int whole).div (Number.tenTo precision)

theorem settle_infinity (precision : Int) (negative : Bool) :
    settle precision (.infinity negative) = .error .infinityHasNoFloor := by
  obtain ⟨_, finite⟩ := half_eq
  rw [settle, finite]
  rfl

theorem settle_returns {precision : Int} (low : 0 ≤ precision) (negative : Bool) (quanta : Nat)
    (exact : Representable quanta) :
    ∃ score, settle precision (.finite negative quanta exact) = .ok score := by
  obtain ⟨negative', quanta', exact', added⟩ := add_half_returns negative quanta exact
  have room := (Binary64.natAbs_floor_mul_unit_le negative' quanta').trans_lt
    (Nat.lt_of_le_of_lt (by omega) (Binary64.representable_add_unit_lt exact'))
  have divisor : (0 : Int) < Nat.pow 10 precision.toNat :=
    Int.natCast_pos.mpr (Nat.pow_pos (by decide))
  obtain ⟨score, divided⟩ := Number.quotient_returns divisor room
  refine ⟨score, ?_⟩
  rw [settle, added, Number.tenTo, if_pos low]
  exact divided

theorem roundHalfUp_finite {precision : Int} (low : 0 ≤ precision) (high : precision ≤ 6)
    (negative : Bool) (quanta : Nat) (exact : Representable quanta) :
    roundHalfUp precision (.finite negative quanta exact) =
      settle precision (Binary64.ofQuotient negative
        (quanta * (Nat.pow 10 precision.toNat * Binary64.unit)) Binary64.unit) := by
  obtain ⟨exactFactor, factor⟩ := tenTo_exact low high
  have steps : roundHalfUp precision (.finite negative quanta exact) =
      (Number.tenTo precision).toBinary64? >>= fun factor =>
        settle precision ((Binary64.finite negative quanta exact).mul factor) := rfl
  rw [steps, factor, Outcome.ok_bind, Binary64.mul, Bool.xor_false]

/-- A finite sum that is too large to be rounded to so many places. -/
def SumOverflows (precision : Int) : Binary64 → Prop
  | .finite _ quanta _ => Binary64.limit ≤ quanta * Nat.pow 10 precision.toNat
  | _ => False

theorem roundHalfUp_eq_error_iff {precision : Int} (low : 0 ≤ precision) (high : precision ≤ 6)
    {total : Binary64} {fault : ArithmeticFault} :
    roundHalfUp precision total = .error fault ↔
      fault = .infinityHasNoFloor ∧ SumOverflows precision total := by
  cases total with
  | nan | infinity _ => simp [roundHalfUp, Binary64.isFinite, SumOverflows]
  | finite negative quanta exact =>
      have inRange := @Binary64.isFinite_ofQuotient_iff
        (quanta * (Nat.pow 10 precision.toNat * Binary64.unit)) _ Binary64.unit_pos negative
      rw [← Nat.mul_assoc, Nat.mul_lt_mul_right Binary64.unit_pos] at inRange
      rw [roundHalfUp_finite low high, SumOverflows, ← Nat.not_lt, ← inRange, ← Nat.mul_assoc]
      rcases Binary64.eq_finite_or_infinity negative
        (quanta * Nat.pow 10 precision.toNat * Binary64.unit) Binary64.unit with
        ⟨rounded, same⟩ | same
      · obtain ⟨score, settled⟩ := settle_returns low negative _ rounded
        rw [same, settled]
        simp [Binary64.isFinite]
      · rw [same, settle_infinity]
        simp [Binary64.isFinite, eq_comm]

/-- What an entry of the weights adds to a sum. -/
def weighted (profile : Profile) (entry : String × Number) : Except ArithmeticFault Binary64 := do
  ((← (profile.score entry.1).mul entry.2).toBinary64?)

/-- A weighted score that does not become a floating point value. -/
def PartOverflows (profile : Profile) (entry : String × Number) : Prop :=
  (profile.score entry.1).Clash entry.2 ∨
    ∃ part, (profile.score entry.1).mul entry.2 = .ok part ∧ part.Oversized

theorem weighted_eq_error_iff {profile : Profile} {entry : String × Number}
    {fault : ArithmeticFault} :
    weighted profile entry = .error fault ↔
      fault = .integerTooLarge ∧ PartOverflows profile entry := by
  simp only [weighted, Outcome.bind_eq_error_iff, Number.mul_eq_error_iff,
    Number.toBinary64?_eq_error_iff, PartOverflows]
  constructor
  · rintro (⟨rfl, clash⟩ | ⟨part, multiplied, rfl, oversized⟩)
    · exact ⟨rfl, .inl clash⟩
    · exact ⟨rfl, .inr ⟨part, multiplied, oversized⟩⟩
  · rintro ⟨rfl, clash | ⟨part, multiplied, oversized⟩⟩
    · exact .inl ⟨rfl, clash⟩
    · exact .inr ⟨part, multiplied, rfl, oversized⟩

theorem sumFrom_cons (profile : Profile) (total : Binary64) (entry : String × Number)
    (rest : Fields Number) :
    sumFrom profile total (entry :: rest) =
      weighted profile entry >>= fun part => sumFrom profile (total.add part) rest := by
  simp only [sumFrom, weighted, bind_assoc]

theorem sumFrom_eq_error_iff {profile : Profile} {total : Binary64} {entries : Fields Number}
    {fault : ArithmeticFault} :
    sumFrom profile total entries = .error fault ↔
      fault = .integerTooLarge ∧ ∃ entry ∈ entries, PartOverflows profile entry := by
  induction entries generalizing total with
  | nil => simp [sumFrom]
  | cons entry rest ih =>
      rw [sumFrom_cons]
      cases part : weighted profile entry with
      | error found =>
          obtain ⟨rfl, overflows⟩ := weighted_eq_error_iff.mp part
          simp [overflows, eq_comm]
      | ok value =>
          have fits : ¬ PartOverflows profile entry := by
            intro overflows
            rw [weighted_eq_error_iff.mpr ⟨rfl, overflows⟩] at part
            cases part
          simp [ih, fits]

/-- A score of a product that does not come out: a weighted score is too large, or their sum
    is too large to be rounded. -/
inductive Overflows (product : Product) (profile : Profile) (precision : Int) : Prop where
  | part {entry} (listed : entry ∈ product.weightByScore)
      (overflows : PartOverflows profile entry)
  | sum {total} (summed : product.weightedSum profile = .ok total)
      (overflows : SumOverflows precision total)

theorem rankScore_returns_iff {product : Product} {profile : Profile} {precision : Int}
    (low : 0 ≤ precision) (high : precision ≤ 6) :
    (∃ score, product.rankScore profile precision = .ok score) ↔
      ¬ product.Overflows profile precision := by
  constructor
  · rintro ⟨score, returned⟩ overflows
    obtain ⟨total, summed, rounded⟩ := Outcome.bind_eq_ok_iff.mp returned
    cases overflows with
    | part listed overflows =>
        have failed : product.weightedSum profile = .error .integerTooLarge :=
          sumFrom_eq_error_iff.mpr ⟨rfl, _, listed, overflows⟩
        rw [summed] at failed
        cases failed
    | sum summed' overflows =>
        cases summed.symm.trans summed'
        rw [(roundHalfUp_eq_error_iff low high).mpr ⟨rfl, overflows⟩] at rounded
        cases rounded
  · intro safe
    cases summed : product.weightedSum profile with
    | error fault =>
        obtain ⟨_, entry, listed, overflows⟩ := sumFrom_eq_error_iff.mp summed
        exact absurd (.part listed overflows) safe
    | ok total =>
        cases rounded : roundHalfUp precision total with
        | error fault =>
            have overflows := ((roundHalfUp_eq_error_iff low high).mp rounded).2
            exact absurd (.sum summed overflows) safe
        | ok score => exact ⟨score, by simp [rankScore, summed, rounded]⟩

theorem hasWritableChecks_iff {product : Product} {profile : Profile} :
    product.HasWritableChecks profile ↔ ∀ required ∈ product.requiredScores,
      (profile.score required.1).isWritable = true ∧ required.2.isWritable = true := by
  rw [HasWritableChecks, checks, List.forall_mem_map]
  rfl

/-- A product is not scored: its score does not come out, or a number in the line about a
    required score cannot be written. -/
inductive Unscored (product : Product) (profile : Profile) (precision : Int) : Prop where
  | score (overflows : product.Overflows profile precision)
  | line {required} (listed : required ∈ product.requiredScores)
      (unwritable : (profile.score required.1).isWritable = false ∨
        required.2.isWritable = false)

theorem scored_returns_iff {product : Product} {profile : Profile} {precision : Int}
    (low : 0 ≤ precision) (high : precision ≤ 6) :
    (∃ scored, product.scored profile precision = .ok scored) ↔
      (product.exclusion? profile = none → ¬ product.Unscored profile precision) := by
  cases excluded : product.exclusion? profile with
  | some tag => simp [scored_of_excluded excluded]
  | none =>
      have scored : (∃ scored, product.scored profile precision = .ok scored) ↔
          product.HasWritableChecks profile ∧ ¬ product.Overflows profile precision := by
        rw [← rankScore_returns_iff low high]
        constructor
        · rintro ⟨scored, done⟩
          obtain ⟨writable, score, ranked, -⟩ := (scored_eq_ok_iff_of_free excluded).mp done
          exact ⟨writable, score, ranked⟩
        · rintro ⟨writable, score, ranked⟩
          exact ⟨_, scored_of_free excluded writable ranked⟩
      rw [scored, hasWritableChecks_iff]
      constructor
      · rintro ⟨writable, fits⟩ - (overflows | ⟨listed, unwritable⟩)
        · exact fits overflows
        · simp [writable _ listed] at unwritable
      · intro safe
        refine ⟨fun required listed => ?_, fun overflows => safe rfl (.score overflows)⟩
        have line := fun unwritable => safe rfl (.line listed unwritable)
        simpa [not_or] using line

end Product

namespace Ranking

/-- A ranking comes out unless some product is not scored that is active and free of
    exclusions. -/
theorem recommend_returns_iff (products : List Product) (profile : Profile) {precision : Int}
    (low : 0 ≤ precision) (high : precision ≤ 6) :
    (∃ entries, recommend products profile precision = .ok entries) ↔
      ∀ product ∈ products, product.active = true → product.exclusion? profile = none →
        ¬ product.Unscored profile precision := by
  have catalog : (∃ entries, recommend products profile precision = .ok entries) ↔
      ∃ scored, scoreCatalog products profile precision = .ok scored := by
    cases scored : scoreCatalog products profile precision <;> simp [recommend, scored]
  rw [catalog, scoreCatalog, Outcome.mapM_returns_iff]
  simp only [List.mem_filter, and_imp, Product.scored_returns_iff low high]

/-- A product that weighs a score with the largest power of ten but one. -/
def jackpot : Product where
  id := "jackpot"
  name := "Jackpot"
  weightByScore := [("luck", .real (Binary64.ofDecimal false ⟨1, 307⟩))]

def winner : Profile := { customerId := "C1", scores := [("luck", .int 1)] }

theorem rankScore_jackpot : jackpot.rankScore winner 2 = .error .infinityHasNoFloor := by
  decide +kernel

/-- With whole scores there is a ranking. -/
theorem recommend_jackpot_whole :
    (0 : Int) ≤ 0 ∧ (0 : Int) ≤ 6 ∧ ∃ entries, recommend [jackpot] winner 0 = .ok entries := by
  have whole : jackpot.rankScore winner 0 = .ok (Binary64.ofDecimal false ⟨1, 307⟩) := by
    decide +kernel
  refine ⟨by decide, by decide, ?_⟩
  rw [recommend_returns_iff _ _ (by decide) (by decide)]
  intro product listed _ _
  obtain rfl := List.mem_singleton.mp listed
  rintro (overflows | ⟨listed, -⟩)
  · exact (Product.rankScore_returns_iff (by decide) (by decide)).mp ⟨_, whole⟩ overflows
  · cases listed

/-- The weighted sum is finite, and yet there is no ranking with two places. -/
theorem recommend_jackpot_fails :
    (∃ total, jackpot.weightedSum winner = .ok total ∧ total.isFinite = true) ∧
    ¬ ∃ entries, recommend [jackpot] winner 2 = .ok entries := by
  have total : jackpot.weightedSum winner = .ok (Binary64.ofDecimal false ⟨1, 307⟩) := by
    decide +kernel
  have finite : (Binary64.ofDecimal false ⟨1, 307⟩).isFinite = true := by decide +kernel
  refine ⟨⟨_, total, finite⟩, ?_⟩
  rintro ⟨entries, returned⟩
  have failed : recommend [jackpot] winner 2 = .error .infinityHasNoFloor := by
    have free : jackpot.exclusion? winner = none := rfl
    have unchecked : jackpot.checks winner = [] := rfl
    have scored : jackpot.scored winner 2 = .error .infinityHasNoFloor := by
      simp only [Product.scored, free, unchecked, rankScore_jackpot]
      rfl
    have active : [jackpot].filter Product.active = [jackpot] := rfl
    simp only [recommend, scoreCatalog, active, List.mapM_cons, scored]
    rfl
  rw [failed] at returned
  cases returned

end Ranking

end NextOffer
