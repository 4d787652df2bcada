import NextOffer.Binary64.Decimal

/-! # Reading decimal notation

The notation of floating point values: a sign, digits with at most one point, and an
exponent. A value past the largest becomes an infinity, never an error.
-/

namespace NextOffer

/-- The sign in front of a text and the text behind it. -/
def takeSign : List Char → Bool × List Char
  | '-' :: rest => (true, rest)
  | '+' :: rest => (false, rest)
  | rest => (false, rest)

def leadingDigits (cs : List Char) : List Char := cs.takeWhile Char.isDigit

/-- An exponent in front of a text, with the text behind it: the letter, a sign and at
    least one digit. -/
def takeExponent? : List Char → Option (Int × List Char)
  | [] => none
  | letter :: rest =>
      let signed := takeSign rest
      let digits := leadingDigits signed.2
      if (letter = 'e' ∨ letter = 'E') ∧ digits ≠ [] then
        let power : Int := Nat.ofDigitChars 10 digits 0
        some (if signed.1 then -power else power, signed.2.drop digits.length)
      else none

namespace Binary64

/-- The value of digits before and after the point and an exponent. -/
def ofParts (negative : Bool) (whole fraction : List Char) (exponent : Int) : Binary64 :=
  ofDecimal negative ⟨Nat.ofDigitChars 10 (whole ++ fraction) 0, exponent - fraction.length⟩

/-- Names of the special values, in small letters. -/
def special? (negative : Bool) (name : String) : Option Binary64 :=
  if name = "inf" ∨ name = "infinity" then some (.infinity negative)
  else if name = "nan" then some .nan
  else none

/-- Read a whole text: a sign, then a special name in any case, or digits on at least
    one side of an optional point and an optional exponent. -/
def ofNotation? (cs : List Char) : Option Binary64 :=
  let (negative, body) := takeSign cs
  match special? negative (String.ofList (body.map Char.toLower)) with
  | some value => some value
  | none =>
      let whole := leadingDigits body
      let rest := body.drop whole.length
      let fraction := if rest.head? = some '.' then leadingDigits rest.tail else []
      let rest := if rest.head? = some '.' then rest.tail.drop fraction.length else rest
      if whole = [] ∧ fraction = [] then none
      else if rest = [] then some (ofParts negative whole fraction 0)
      else
        match takeExponent? rest with
        | some (exponent, []) => some (ofParts negative whole fraction exponent)
        | _ => none

end Binary64

/-- Leave out underscores, each of which has to stand between two digits; the flag
    tells whether a digit stands before the text. -/
def dropUnderscores? (afterDigit : Bool) : List Char → Option (List Char)
  | [] => some []
  | c :: rest =>
      if c = '_' then
        if afterDigit && rest.head?.any Char.isDigit then dropUnderscores? false rest else none
      else (dropUnderscores? c.isDigit rest).map (c :: ·)

end NextOffer
