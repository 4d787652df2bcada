import NextOffer.Proofs.Binary64.Range

/-! # Numbers on the line

Numbers are compared by their places on the line, which are totally ordered. Every number but
a NaN has a place.
-/

namespace NextOffer

namespace Place

theorem le_refl (a : Place) : a.le a = true := by
  cases a <;> simp [le]

theorem le_trans {a b c : Place} (first : a.le b = true) (second : b.le c = true) :
    a.le c = true := by
  cases a <;> cases b <;> cases c <;> simp_all [le]
  omega

theorem le_total (a b : Place) : a.le b = true ∨ b.le a = true := by
  cases a <;> cases b <;> simp [le]
  omega

theorem le_antisymm {a b : Place} (first : a.le b = true) (second : b.le a = true) : a = b := by
  cases a <;> cases b <;> simp_all [le]
  omega

/-- The place on the other side of zero. -/
def mirror : Place → Place
  | lowest => highest
  | .at quanta => .at (-quanta)
  | highest => lowest

theorem le_mirror (a b : Place) : a.mirror.le b.mirror = b.le a := by
  cases a <;> cases b <;> simp [mirror, le]

end Place

namespace Binary64

theorem signed_mul (negative : Bool) (quanta factor : Nat) :
    signed negative (quanta * factor) = signed negative quanta * factor := by
  cases negative <;> simp [signed]

theorem signed_inj {negative negative' : Bool} {quanta quanta' : Nat} (positive : 0 < quanta) :
    signed negative quanta = signed negative' quanta' ↔
      negative = negative' ∧ quanta = quanta' := by
  cases negative <;> cases negative' <;> simp [signed] <;> omega

theorem place?_of_isZero {x : Binary64} (zero : x.isZero = true) : x.place? = some (.at 0) := by
  cases x with
  | nan => cases zero
  | infinity negative => cases zero
  | finite negative quanta exact =>
      have none : quanta = 0 := by simpa [isZero] using zero
      cases negative <;> simp [place?, signed, none]

theorem eq_of_place? {x y : Binary64} (nonzero : x.isZero = false) (placed : x.place?.isSome)
    (place : x.place? = y.place?) : x = y := by
  cases x with
  | nan => cases placed
  | infinity negative =>
      cases y with
      | nan => cases place
      | infinity negative' => cases negative <;> cases negative' <;> first | rfl | cases place
      | finite => cases negative <;> cases place
  | finite negative quanta exact =>
      cases y with
      | nan => cases place
      | infinity negative' => cases negative' <;> cases place
      | finite negative' quanta' exact' =>
          have positive : 0 < quanta := by
            have some : quanta ≠ 0 := by simpa [isZero] using nonzero
            exact Nat.pos_of_ne_zero some
          simp only [place?, Option.some.injEq, Place.at.injEq, signed_inj positive] at place
          obtain ⟨rfl, rfl⟩ := place
          rfl

end Binary64

namespace Number

theorem place?_int_injective : Function.Injective fun n => (int n).place? := by
  intro n m same
  have unit_ne_zero : (Binary64.unit : Int) ≠ 0 := by exact_mod_cast Binary64.unit_pos.ne'
  simp only [place?, Option.some.injEq, Place.at.injEq] at same
  exact Int.eq_of_mul_eq_mul_right unit_ne_zero same

theorem place?_neg (x : Number) : x.neg.place? = x.place?.map Place.mirror := by
  cases x with
  | int n =>
      show some (Place.at (-n * Binary64.unit)) = some (Place.at (-(n * Binary64.unit)))
      rw [Int.neg_mul]
  | real value =>
      cases value with
      | nan => rfl
      | infinity negative => cases negative <;> rfl
      | finite negative quanta h =>
          cases negative <;> simp [neg, Binary64.neg, place?, Binary64.place?, Place.mirror,
            Binary64.signed]

theorem le_neg (x y : Number) : x.neg.le y.neg = y.le x := by
  simp only [le, place?_neg]
  cases x.place? <;> cases y.place? <;> simp [Place.le_mirror]

theorem lt_neg (x y : Number) : x.neg.lt y.neg = y.lt x := by
  simp only [lt, le_neg]

theorem not_lt {x y : Number} (placed : x.place?.isSome) (placed' : y.place?.isSome) :
    (!x.lt y) = y.le x := by
  obtain ⟨a, atA⟩ := Option.isSome_iff_exists.mp placed
  obtain ⟨b, atB⟩ := Option.isSome_iff_exists.mp placed'
  simp only [lt, le, atA, atB]
  rcases Place.le_total a b with up | down
  · cases back : b.le a <;> simp [up]
  · simp [down]

theorem place?_eq_of_same {x y : Number} (same : x.same y = true) : x.place? = y.place? := by
  simp only [Number.same, le, Bool.and_eq_true] at same
  cases atX : x.place? <;> cases atY : y.place? <;> simp_all
  exact Place.le_antisymm same.1 same.2

theorem same_iff {x y : Number} (placed : x.place?.isSome) :
    x.same y = true ↔ x.place? = y.place? := by
  constructor
  · exact place?_eq_of_same
  · intro together
    obtain ⟨place, atX⟩ := Option.isSome_iff_exists.mp placed
    simp [same, le, ← together, atX, Place.le_refl]

theorem le_iff (x y : Number) : x.le y = true ↔ x.lt y = true ∨ x.same y = true := by
  simp only [lt, same]
  cases x.le y <;> cases y.le x <;> simp

theorem same_comm (x y : Number) : x.same y = y.same x := Bool.and_comm _ _

theorem le_total {x y : Number} (placed : x.place?.isSome) (placed' : y.place?.isSome) :
    x.le y = true ∨ y.le x = true := by
  obtain ⟨a, atA⟩ := Option.isSome_iff_exists.mp placed
  obtain ⟨b, atB⟩ := Option.isSome_iff_exists.mp placed'
  simp only [le, atA, atB]
  exact Place.le_total a b

theorem le_trans {x y z : Number} (first : x.le y = true) (second : y.le z = true) :
    x.le z = true := by
  simp only [le] at first second ⊢
  cases atX : x.place? <;> cases atY : y.place? <;> cases atZ : z.place? <;> simp_all
  exact Place.le_trans first second

theorem lt_trichotomy {x y : Number} (placed : x.place?.isSome) (placed' : y.place?.isSome) :
    (x.lt y = true ∧ ¬ x.same y = true ∧ ¬ y.lt x = true) ∨
      (¬ x.lt y = true ∧ x.same y = true ∧ ¬ y.lt x = true) ∨
      (¬ x.lt y = true ∧ ¬ x.same y = true ∧ y.lt x = true) := by
  have total := le_total placed placed'
  simp only [lt, same]
  cases up : x.le y <;> cases down : y.le x <;> simp_all

theorem place?_real_eq_none_iff {x : Binary64} : (real x).place? = none ↔ x = .nan := by
  cases x <;> simp [place?, Binary64.place?]

end Number

end NextOffer
