import NextOffer.Binary64.Basic

/-! # Decimal forms of binary floating point values

Reading rounds a decimal once. Writing uses the fewest digits that read back, the
nearest such decimal, and of two equally near ones the even; or a fixed number of
places, an exact half to the even digit.
-/

namespace NextOffer

/-- A positive decimal `digits * 10 ^ exponent`. -/
structure Decimal where
  digits : Nat
  exponent : Int
  deriving DecidableEq, Repr

namespace Decimal

/-- Number of decimal digits of a natural; zero has one. -/
def digitCount (n : Nat) : Nat := (Nat.toDigits 10 n).length

/-- The decimal as a quotient, in quanta. -/
def quotient (d : Decimal) : Nat × Nat :=
  if 0 ≤ d.exponent then (d.digits * Nat.pow 10 d.exponent.toNat * Binary64.unit, 1)
  else (d.digits * Binary64.unit, Nat.pow 10 (-d.exponent).toNat)

/-- The same decimal without trailing zeros; `fuel` bounds their number. -/
def trim : Nat → Decimal → Decimal
  | 0, d => d
  | fuel + 1, d => if d.digits % 10 = 0 then trim fuel ⟨d.digits / 10, d.exponent + 1⟩ else d

end Decimal

namespace Binary64

/-- The value nearest a signed decimal. The powers are only formed when the decimal
    lies between the smallest and the largest magnitudes. -/
def ofDecimal (negative : Bool) (d : Decimal) : Binary64 :=
  let place := Decimal.digitCount d.digits + d.exponent
  if d.digits = 0 then zero negative
  else if 310 < place then .infinity negative
  else if place < -330 then zero negative
  else ofQuotient negative d.quotient.1 d.quotient.2

/-- The number of digits before the decimal point of a positive magnitude, negative
    when zeros follow the point: the magnitude is below 10 to this power and at least
    a tenth of that. -/
def decimalPlace (quanta : Nat) : Int :=
  Decimal.digitCount (quanta * Nat.pow 10 400 / unit) - 400

/-- A multiple of 10 to `exponent` that rounds to the magnitude and is one of its two
    neighbours on that grid: the nearer one, and the even one of two equally near. -/
def onGrid? (quanta : Nat) (exponent : Int) : Option Decimal :=
  let scaled := if 0 ≤ exponent then (quanta, unit * Nat.pow 10 exponent.toNat)
    else (quanta * Nat.pow 10 (-exponent).toNat, unit)
  let below : Decimal := ⟨scaled.1 / scaled.2, exponent⟩
  let above : Decimal := ⟨scaled.1 / scaled.2 + 1, exponent⟩
  let readsBack (d : Decimal) : Bool := nearest d.quotient.1 d.quotient.2 == quanta
  let rest := 2 * (scaled.1 % scaled.2)
  let belowWins := rest < scaled.2 ∨ (rest = scaled.2 ∧ below.digits % 2 = 0)
  if readsBack below ∧ (belowWins ∨ ¬ readsBack above) then some below
  else if readsBack above then some above
  else none

/-- Try `count` digits, then one more, `fuel` times. -/
def shortestFrom (quanta : Nat) : Nat → Nat → Decimal
  | 0, _ => ⟨quanta * Nat.pow 10 1074 / unit, -1074⟩
  | fuel + 1, count =>
      (onGrid? quanta (decimalPlace quanta - count)).getD (shortestFrom quanta fuel (count + 1))

/-- The shortest decimal that reads back as a positive magnitude. Seventeen digits
    always suffice. -/
def shortest (quanta : Nat) : Decimal :=
  Decimal.trim 400 (shortestFrom quanta 17 1)

def positional (digits : List Char) (place : Int) : List Char :=
  if place ≤ 0 then ['0', '.'] ++ List.replicate (-place).toNat '0' ++ digits
  else if digits.length ≤ place.toNat then
    digits ++ List.replicate (place.toNat - digits.length) '0' ++ ['.', '0']
  else digits.take place.toNat ++ '.' :: digits.drop place.toNat

/-- An exponent of at least two digits with its letter and its sign. -/
def exponentChars (exponent : Int) : List Char :=
  let power := Nat.toDigits 10 exponent.natAbs
  ['e', if exponent < 0 then '-' else '+'] ++ if power.length < 2 then '0' :: power else power

/-- A decimal written with one digit before the point and an exponent. -/
def scientific (digits : List Char) (place : Int) : List Char :=
  let fraction := if digits.length ≤ 1 then [] else '.' :: digits.drop 1
  digits.take 1 ++ fraction ++ exponentChars (place - 1)

/-- The text of a positive decimal: positional from 0.0001 up to below 10^16. -/
def layout (d : Decimal) : List Char :=
  let digits := Nat.toDigits 10 d.digits
  let place := digits.length + d.exponent
  if -4 < place ∧ place ≤ 16 then positional digits place else scientific digits place

def chars : Binary64 → List Char
  | .nan => "nan".toList
  | .infinity negative => (if negative then ['-'] else []) ++ "inf".toList
  | .finite negative quanta _ =>
      (if negative then ['-'] else []) ++
        (if quanta = 0 then "0.0".toList else layout (shortest quanta))

/-- The text with a fixed number of places, and without the point when there are none. -/
def fixed (places : Nat) : Binary64 → List Char
  | .finite negative quanta _ =>
      let digits := Nat.toDigits 10 (roundDiv (quanta * Nat.pow 10 places) unit)
      let padded := List.replicate (places + 1 - digits.length) '0' ++ digits
      (if negative then ['-'] else []) ++ padded.take (padded.length - places) ++
        if places = 0 then [] else '.' :: padded.drop (padded.length - places)
  | special => special.chars

end Binary64

end NextOffer
