import NextOffer.Binary64.Decimal

/-! # Rounded decimal forms of binary floating point values

Decimals of so many significant digits, an exact half to the even digit: always with an
exponent, or only when the value is very small or has more digits before its point than
are wanted.
-/

namespace NextOffer.Binary64

/-- Significant digits that suffice to write any magnitude exactly. -/
def exactCount : Nat := 1100

/-- So many significant digits of a magnitude, at least one, and how many of them stand
    before the point. Zero has one digit there. -/
def significant (count quanta : Nat) : List Char × Int :=
  if quanta = 0 then (List.replicate count '0', 1)
  else
    let place := decimalPlace quanta
    let exact := min count exactCount
    let digits := Nat.toDigits 10 <|
      if (exact : Int) ≤ place then
        roundDiv quanta (unit * Nat.pow 10 (place - exact).toNat)
      else roundDiv (quanta * Nat.pow 10 (exact - place).toNat) unit
    let zeros := List.replicate (count - exact) '0'
    (digits.take exact ++ zeros, place + (digits.length - exact))

/-- The digits behind a point, which may be kept without any. -/
def pointed (keepPoint : Bool) (fraction : List Char) : List Char :=
  if keepPoint ∨ fraction ≠ [] then '.' :: fraction else []

/-- The text with an exponent and so many places. -/
def exponential (places : Nat) (keepPoint : Bool) : Binary64 → List Char
  | .finite negative quanta _ =>
      let (digits, place) := significant (places + 1) quanta
      (if negative then ['-'] else []) ++ digits.take 1 ++ pointed keepPoint (digits.drop 1) ++
        exponentChars (place - 1)
  | special => special.chars

/-- The text with so many significant digits, without zeros at its end unless they are
    kept: with an exponent when it is below 0.0001 or has more digits before its point. -/
def general (count : Nat) (keepZeros : Bool) : Binary64 → List Char
  | .finite negative quanta _ =>
      let count := max 1 count
      let (digits, place) := significant count quanta
      let trimmed := (digits.reverse.dropWhile (· == '0')).reverse
      let digits := if keepZeros then digits else if trimmed = [] then ['0'] else trimmed
      let text :=
        if place ≤ -4 ∨ count < place then
          digits.take 1 ++ pointed keepZeros (digits.drop 1) ++ exponentChars (place - 1)
        else if place ≤ 0 then
          '0' :: pointed keepZeros (List.replicate (-place).toNat '0' ++ digits)
        else
          let zeros := List.replicate (place.toNat - digits.length) '0'
          digits.take place.toNat ++ zeros ++ pointed keepZeros (digits.drop place.toNat)
      (if negative then ['-'] else []) ++ text
  | special => special.chars

end NextOffer.Binary64
