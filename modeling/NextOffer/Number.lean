import NextOffer.Binary64.Arithmetic
import NextOffer.Binary64.Decimal

/-! # Numbers

A number is an unbounded integer or a floating point value, and the two kinds are
kept apart. Integer arithmetic is exact; as soon as one operand is a floating point
value both are, and an integer that is too large for that is a fault. The order
compares exact values across the kinds. An integer of more than a few thousand digits
has no text: whatever would write it fails.
-/

namespace NextOffer

/-- The most digits of an integer that is read from a text or written as one. -/
def digitLimit : Nat := 4300

inductive ArithmeticFault where
  /-- An integer beyond the largest floating point value met one. -/
  | integerTooLarge
  /-- A quotient of integers beyond the largest floating point value. -/
  | quotientTooLarge
  | infinityHasNoFloor
  | nanHasNoFloor
  | divisionByZero
  /-- An integer with more digits than are written. -/
  | tooManyDigits
  deriving DecidableEq, Repr

namespace ArithmeticFault

def message : ArithmeticFault → String
  | integerTooLarge => "int too large to convert to float"
  | quotientTooLarge => "integer division result too large for a float"
  | infinityHasNoFloor => "cannot convert float infinity to integer"
  | nanHasNoFloor => "cannot convert float NaN to integer"
  | divisionByZero => "float division by zero"
  | tooManyDigits =>
      s!"Exceeds the limit ({digitLimit} digits) for integer string conversion; " ++
        "use sys.set_int_max_str_digits() to increase the limit"

end ArithmeticFault

inductive Number where
  | int (value : Int)
  | real (value : Binary64)
  deriving DecidableEq

/-- A place on the extended line, in quanta. -/
inductive Place where
  | lowest
  | at (quanta : Int)
  | highest
  deriving DecidableEq

namespace Place

def le : Place → Place → Bool
  | .lowest, _ => true
  | _, .highest => true
  | .at a, .at b => decide (a ≤ b)
  | _, _ => false

end Place

namespace Binary64

/-- Where a value lies on the line; a NaN lies nowhere. -/
def place? : Binary64 → Option Place
  | .nan => none
  | .infinity negative => some (if negative then .lowest else .highest)
  | .finite negative quanta _ => some (.at (signed negative quanta))

/-- The floating point value nearest an integer, if it is within range. -/
def ofInt? (n : Int) : Except ArithmeticFault Binary64 :=
  match ofInt n with
  | .infinity _ => .error .integerTooLarge
  | value => .ok value

/-- The largest integer that is not above a finite value. -/
def floor? : Binary64 → Except ArithmeticFault Int
  | .nan => .error .nanHasNoFloor
  | .infinity _ => .error .infinityHasNoFloor
  | .finite negative quanta _ => .ok (signed negative quanta / unit)

end Binary64

namespace Number

instance : Inhabited Number := ⟨.int 0⟩

instance : OfNat Number n := ⟨.int n⟩

/-- Where a number lies on the line; a NaN lies nowhere. -/
def place? : Number → Option Place
  | .int n => some (.at (n * Binary64.unit))
  | .real x => x.place?

/-- Whether the second number is at least the first; never with a NaN. -/
def le (x y : Number) : Bool :=
  match x.place?, y.place? with
  | some a, some b => a.le b
  | _, _ => false

/-- Whether the first number is below the second; never with a NaN. -/
def lt (x y : Number) : Bool := x.le y && !y.le x

/-- Whether the numbers have one value, whatever their kinds; never with a NaN. -/
def same (x y : Number) : Bool := x.le y && y.le x

def isZero : Number → Bool
  | .int n => n == 0
  | .real x => x.isZero

/-- An integer of 64 bits, or a whole floating point value strictly between the bounds of
    such integers. -/
def isWord : Number → Bool
  | .int n => decide (-(Nat.pow 2 63 : Int) ≤ n ∧ n < Nat.pow 2 63)
  | .real x => x.isIntegral && decide (x.truncate.natAbs < Nat.pow 2 63)

def toBinary64? : Number → Except ArithmeticFault Binary64
  | .int n => Binary64.ofInt? n
  | .real x => .ok x

/-- An operation that is exact on integers and rounded as soon as one operand is a
    floating point value. -/
def combine (exact : Int → Int → Int) (rounded : Binary64 → Binary64 → Binary64) :
    Number → Number → Except ArithmeticFault Number
  | .int a, .int b => .ok (.int (exact a b))
  | x, y => do
      let a ← x.toBinary64?
      let b ← y.toBinary64?
      return .real (rounded a b)

def add : Number → Number → Except ArithmeticFault Number := combine (· + ·) Binary64.add

def sub : Number → Number → Except ArithmeticFault Number := combine (· - ·) Binary64.sub

def mul : Number → Number → Except ArithmeticFault Number := combine (· * ·) Binary64.mul

def neg : Number → Number
  | .int n => .int (-n)
  | .real x => .real x.neg

def quotient (num den : Int) : Except ArithmeticFault Binary64 :=
  if den = 0 then .error .divisionByZero
  else if num = 0 then .ok (Binary64.zero false)
  else
    match Binary64.ofQuotient (decide (num < 0) != decide (den < 0))
        (num.natAbs * Binary64.unit) den.natAbs with
    | .infinity _ => .error .quotientTooLarge
    | value => .ok value

/-- The rounded quotient by a number that is not zero. -/
def div (x y : Number) : Except ArithmeticFault Binary64 :=
  match x, y with
  | .int a, .int b => quotient a b
  | x, y => do
      let a ← x.toBinary64?
      let b ← y.toBinary64?
      if b.isZero then throw .divisionByZero else return a.div b

/-- Ten to a power: an integer, or the nearest floating point value when the power is
    negative. -/
def tenTo (power : Int) : Number :=
  if 0 ≤ power then .int (Nat.pow 10 power.toNat) else .real (Binary64.ofDecimal false ⟨1, power⟩)

end Number

/-- The decimal digits of an integer after its sign, however many they are. -/
def signedDigits : Int → List Char
  | .ofNat n => Nat.toDigits 10 n
  | .negSucc n => '-' :: Nat.toDigits 10 (n + 1)

namespace Number

/-- The exact spelling: a floating point value keeps its point. -/
def chars : Number → List Char
  | .int n => signedDigits n
  | .real x => x.chars

/-- The spelling for readers: a whole floating point value reads like an integer. -/
def plainChars : Number → List Char
  | .int n => signedDigits n
  | .real x => if x.isIntegral then signedDigits x.truncate else x.chars

/-- Whether the number can be written: an integer has no more digits than the limit. -/
def isWritable : Number → Bool
  | .int n => decide ((Nat.toDigits 10 n.natAbs).length ≤ digitLimit)
  | .real _ => true

/-- The exact spelling as a text, of a number that can be written. -/
def text (x : Number) : String := String.ofList x.chars

/-- The spelling for readers as a text, of a number that can be written. -/
def plainText (x : Number) : String := String.ofList x.plainChars

/-- The text for readers: `62`, never `62.0`. Fractions are never rounded, and an integer
    with too many digits has no text. -/
def plain (x : Number) : Except ArithmeticFault String :=
  if x.isWritable then .ok x.plainText else .error .tooManyDigits

end Number

end NextOffer
