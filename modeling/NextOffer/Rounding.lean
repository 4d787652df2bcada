/-! # Rounding a quotient

The whole number nearest a quotient. A half goes to the even neighbour.
-/

namespace NextOffer

/-- The whole number nearest `num / den`, an exact half to the even neighbour. -/
def roundDiv (num den : Nat) : Nat :=
  let whole := num / den
  let rest := 2 * (num % den)
  if rest < den then whole
  else if den < rest then whole + 1
  else if whole % 2 = 0 then whole
  else whole + 1

theorem div_le_roundDiv (num den : Nat) : num / den ≤ roundDiv num den := by
  simp only [roundDiv]
  split
  · exact Nat.le_refl _
  · split
    · omega
    · split <;> omega

theorem roundDiv_le_div_add_one (num den : Nat) : roundDiv num den ≤ num / den + 1 := by
  simp only [roundDiv]
  split
  · omega
  · split
    · exact Nat.le_refl _
    · split <;> omega

theorem roundDiv_of_mul (whole den : Nat) (pos : 0 < den) : roundDiv (whole * den) den = whole := by
  simp [roundDiv, Nat.mul_div_cancel _ pos, pos]

end NextOffer
