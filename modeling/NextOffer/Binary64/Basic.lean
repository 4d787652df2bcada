import NextOffer.Rounding

/-! # Binary floating point values of 64 bits

A finite value is a whole number of quanta of size 2^-1074 with at most 53
significant bits. One rounding function serves every operation: the exact result,
a quotient of naturals in quanta, goes to the nearest value, a half to the even
significand, and past the largest value to an infinity.
-/

namespace NextOffer

/-- Magnitudes of finite values, in quanta: below 2^1024, and a multiple of the
    unit that 53 significant bits leave. -/
def Representable (quanta : Nat) : Prop :=
  quanta < Nat.pow 2 2098 ∧ quanta % Nat.pow 2 (quanta.log2 - 52) = 0

instance : DecidablePred Representable :=
  fun _ => inferInstanceAs (Decidable (_ ∧ _))

/-- A floating point value of 64 bits. All payloads of a NaN are one value. -/
inductive Binary64 where
  | nan
  | infinity (negative : Bool)
  /-- A sign and a magnitude in quanta; zero has both signs. -/
  | finite (negative : Bool) (quanta : Nat) (representable : Representable quanta)
  deriving DecidableEq

namespace Binary64

/-- One, in quanta. -/
def unit : Nat := Nat.pow 2 1074

/-- The magnitude nearest `num / den` quanta that 53 significant bits hold, a half
    to the even significand. -/
def nearest (num den : Nat) : Nat :=
  let step := Nat.pow 2 ((num / den).log2 - 52)
  roundDiv num (den * step) * step

/-- The value nearest `num / den` quanta with a sign; an infinity past the largest
    finite value. -/
def ofQuotient (negative : Bool) (num den : Nat) : Binary64 :=
  if h : Representable (nearest num den) then .finite negative (nearest num den) h
  else .infinity negative

theorem representable_zero : Representable 0 := by decide +kernel

def zero (negative : Bool) : Binary64 := .finite negative 0 representable_zero

instance : Inhabited Binary64 := ⟨zero false⟩

/-- The value nearest a whole number of quanta; zero takes the given sign. -/
def ofQuanta (negativeZero : Bool) (quanta : Int) : Binary64 :=
  if quanta = 0 then zero negativeZero else ofQuotient (decide (quanta < 0)) quanta.natAbs 1

def signed (negative : Bool) (quanta : Nat) : Int := if negative then -quanta else quanta

/-- The value nearest an integer; an infinity past the largest finite value. -/
def ofInt (n : Int) : Binary64 := ofQuanta false (n * unit)

def isNaN : Binary64 → Bool
  | .nan => true
  | _ => false

def isFinite : Binary64 → Bool
  | .finite .. => true
  | _ => false

def isIntegral : Binary64 → Bool
  | .finite _ quanta _ => quanta % unit == 0
  | _ => false

/-- The integer part of a finite value, towards zero. -/
def truncate : Binary64 → Int
  | .finite negative quanta _ => signed negative (quanta / unit)
  | _ => 0

def isZero : Binary64 → Bool
  | .finite _ quanta _ => quanta == 0
  | _ => false

end Binary64

end NextOffer
