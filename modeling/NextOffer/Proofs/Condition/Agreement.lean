import NextOffer.Proofs.Number
import NextOffer.Proofs.Number.Conversion
import NextOffer.Proofs.Number.Text

/-! # How the operators agree on numbers

The order operators compare what two numbers become as floating point values, and equality
compares their texts. Converting a number keeps its place when a floating point value lies
there, so both ways of comparing agree, except on two different numbers that become one
floating point value: none of the three strict comparisons holds between these.
-/

namespace NextOffer.Number

variable {a b : Number} {x y : Binary64}

/-- Two different numbers that become one floating point value. -/
def Blurred (a b : Number) : Prop :=
  a.same b = false ∧
    ∃ x y, a.toBinary64? = .ok x ∧ b.toBinary64? = .ok y ∧ (real x).same (real y) = true

/-- Only integers of more than 53 bits blur. -/
theorem Blurred.large (blurred : Blurred a b) :
    ∃ n, (a = int n ∨ b = int n) ∧ Nat.pow 2 53 < n.natAbs := by
  obtain ⟨apart, x, y, left, right, together⟩ := blurred
  by_contra small
  push Not at small
  have atX := place?_of_small (fun n here => small n (.inl here)) left
  have atY := place?_of_small (fun n here => small n (.inr here)) right
  have kept : a.same b = (real x).same (real y) := by
    simp only [same, le, atX, atY]
  rw [kept, together] at apart
  cases apart

/-! ## Operators -/

/-- The operator holds between the numbers. -/
def Meets (op : Operator) (a b : Number) : Prop :=
  satisfies (some (.number a)) op.word (.number b) = .ok true

theorem satisfies_word (op : Operator) (a : Number) (target : Json.Value) :
    satisfies (some (.number a)) op.word target = op.compare (.number a) target := by
  cases op <;> rfl

theorem meets_of_order? {op : Operator} {holds : Binary64 → Binary64 → Bool}
    (asks : op.order? = some holds) (left : a.toBinary64? = .ok x)
    (right : b.toBinary64? = .ok y) : Meets op a b ↔ holds x y = true := by
  simp [Meets, satisfies_word, Operator.compare, asks, Json.Value.measure, left, right,
    Outcome.ok_bind]

theorem meets_equal (placed : a.place?.isSome) (left : a.toBinary64? = .ok x)
    (right : b.toBinary64? = .ok y) : Meets .equal a b ↔ a.same b = true := by
  rw [← plainChars_eq_iff placed]
  simp [Meets, satisfies_word, Operator.compare, Operator.order?, Json.Value.folded_number,
    Json.Value.foldedText, Json.Value.isWritable, isWritable_of_toBinary64? left,
    isWritable_of_toBinary64? right]

/-- The operators agree: one of the three strict comparisons holds, and the other two are
    made up of these. -/
structure Agreement (a b : Number) : Prop where
  one : (Meets .less a b ∧ ¬ Meets .equal a b ∧ ¬ Meets .greater a b) ∨
    (¬ Meets .less a b ∧ Meets .equal a b ∧ ¬ Meets .greater a b) ∨
    (¬ Meets .less a b ∧ ¬ Meets .equal a b ∧ Meets .greater a b)
  lessOrEqual : Meets .lessOrEqual a b ↔ Meets .less a b ∨ Meets .equal a b
  greaterOrEqual : Meets .greaterOrEqual a b ↔ Meets .greater a b ∨ Meets .equal a b

theorem converted_of_returns {answer : Bool}
    (returns : satisfies (some (.number a)) Operator.less.word (.number b) = .ok answer) :
    ∃ x y, a.toBinary64? = .ok x ∧ b.toBinary64? = .ok y := by
  rw [satisfies_word] at returns
  simp only [Operator.compare, Operator.order?, Outcome.bind_eq_ok_iff, Json.Value.measure]
    at returns
  obtain ⟨x, left, y, right, -⟩ := returns
  exact ⟨x, y, left, right⟩

theorem returns_of_converted (left : a.toBinary64? = .ok x) (right : b.toBinary64? = .ok y)
    (op : Operator) :
    ∃ answer, satisfies (some (.number a)) op.word (.number b) = .ok answer := by
  rw [satisfies_word]
  cases op <;> simp [Operator.compare, Operator.order?, Json.Value.measure, left, right,
    Json.Value.foldedText, Json.Value.isWritable, isWritable_of_toBinary64? left,
    isWritable_of_toBinary64? right]

/-- Unless the numbers are blurred, the operators agree. If they are, then one of them is a large
    integer, and only the two operators hold that allow for equality. -/
theorem operators_agree (placed : a.place?.isSome) (placed' : b.place?.isSome)
    (returns : ∀ op : Operator, ∃ answer,
      satisfies (some (.number a)) op.word (.number b) = .ok answer) :
    (¬ Blurred a b → Agreement a b) ∧
      (Blurred a b →
        (∃ n, (a = int n ∨ b = int n) ∧ Nat.pow 2 53 < n.natAbs) ∧
        ¬ Meets .less a b ∧ ¬ Meets .equal a b ∧ ¬ Meets .greater a b ∧
          Meets .lessOrEqual a b ∧ Meets .greaterOrEqual a b) := by
  obtain ⟨answer, answered⟩ := returns .less
  obtain ⟨x, y, left, right⟩ := converted_of_returns answered
  have compared (op : Operator) {holds : Binary64 → Binary64 → Bool}
      (asks : op.order? = some holds) : Meets op a b ↔ holds x y = true :=
    meets_of_order? asks left right
  have less : Meets .less a b ↔ (real x).lt (real y) = true := compared .less rfl
  have greater : Meets .greater a b ↔ (real y).lt (real x) = true := compared .greater rfl
  have lessOrEqual : Meets .lessOrEqual a b ↔ (real x).le (real y) = true :=
    compared .lessOrEqual rfl
  have greaterOrEqual : Meets .greaterOrEqual a b ↔ (real y).le (real x) = true :=
    compared .greaterOrEqual rfl
  have equal := @meets_equal a b x y placed left right
  constructor
  · intro clear
    have equal : Meets .equal a b ↔ (real x).same (real y) = true := by
      rw [equal]
      constructor
      · intro together
        exact same_toBinary64? placed together left right
      · intro together
        by_contra apart
        exact clear ⟨Bool.eq_false_of_not_eq_true apart, x, y, left, right, together⟩
    constructor
    · rw [less, equal, greater]
      exact lt_trichotomy (placed_of_toBinary64? placed left)
        (placed_of_toBinary64? placed' right)
    · rw [lessOrEqual, less, equal, le_iff]
    · rw [greaterOrEqual, greater, equal, same_comm, le_iff]
  · intro blurred
    refine ⟨blurred.large, ?_⟩
    obtain ⟨apart, x', y', left', right', together⟩ := blurred
    obtain rfl := Except.ok.inj (left.symm.trans left')
    obtain rfl := Except.ok.inj (right.symm.trans right')
    simp only [same, Bool.and_eq_true] at together
    rw [less, equal, greater, lessOrEqual, greaterOrEqual]
    simp [lt, apart, together]

theorem converted_gap :
    ∃ value, (int 9007199254740993).toBinary64? = .ok value ∧
      (int 9007199254740992).toBinary64? = .ok value :=
  ⟨Binary64.ofInt 9007199254740992, by decide +kernel, by decide +kernel⟩

theorem operators_agree_gap :
    Agreement (int 3) (real (Binary64.ofInt 3)) ∧
      ¬ Meets .greater (int 9007199254740993) (int 9007199254740992) ∧
      Meets .lessOrEqual (int 9007199254740993) (int 9007199254740992) := by
  obtain ⟨value, left, right⟩ := converted_gap
  have three : (int 3).toBinary64? = .ok (Binary64.ofInt 3) := by decide +kernel
  have clear : ¬ Blurred (int 3) (real (Binary64.ofInt 3)) := by
    rintro ⟨apart, -⟩
    have together : (int 3).same (real (Binary64.ofInt 3)) = true := by decide +kernel
    rw [together] at apart
    cases apart
  have together : (real value).same (real value) = true :=
    (same_iff (placed_of_toBinary64? (by decide) left)).mpr rfl
  have blurred : Blurred (int 9007199254740993) (int 9007199254740992) :=
    ⟨by decide +kernel, value, value, left, right, together⟩
  obtain ⟨-, -, -, greater, lessOrEqual, -⟩ :=
    (operators_agree (by decide) (by decide) (returns_of_converted left right)).2 blurred
  exact ⟨(operators_agree (by decide) (by decide +kernel) (returns_of_converted three rfl)).1 clear,
    greater, lessOrEqual⟩

/-- Two integers that the operators are given without a fault, and on which they disagree. -/
theorem not_agreement_gap :
    (int 9007199254740993).place?.isSome ∧ (int 9007199254740992).place?.isSome ∧
      (∀ op : Operator, ∃ answer, satisfies (some (.number (int 9007199254740993))) op.word
        (.number (int 9007199254740992)) = .ok answer) ∧
      ¬ Agreement (int 9007199254740993) (int 9007199254740992) := by
  obtain ⟨value, left, right⟩ := converted_gap
  refine ⟨by decide, by decide, returns_of_converted left right, ?_⟩
  intro agreement
  have less : ¬ Meets .less (int 9007199254740993) (int 9007199254740992) := by
    unfold Meets
    decide +kernel
  have equal : ¬ Meets .equal (int 9007199254740993) (int 9007199254740992) := by
    unfold Meets
    decide +kernel
  have greater : ¬ Meets .greater (int 9007199254740993) (int 9007199254740992) := by
    unfold Meets
    decide +kernel
  simpa [less, equal, greater] using agreement.one

end NextOffer.Number
