import NextOffer.Binary64.Notation
import NextOffer.Number
import NextOffer.Text.Blank

/-! # Numerals in texts

Texts that are taken for numbers where a record wants one. An integer may have white space
around it, a plus sign, zeros in front, and zeros behind a point. Single underscores may
stand inside of any numeral.
-/

namespace NextOffer.Schema

def hasDoubleUnderscore : List Char → Bool
  | [] => false
  | c :: rest => (c == '_' && rest.head? == some '_') || hasDoubleUnderscore rest

/-- A text without its underscores, as long as each of them stands alone and inside. -/
def withoutUnderscores? (cs : List Char) : Option (List Char) :=
  if cs.head? = some '_' ∨ cs.getLast? = some '_' ∨ hasDoubleUnderscore cs then none
  else some (cs.filter (· ≠ '_'))

/-- A numeral without the zeros and underscores in front. The last zero stays when nothing
    or a point follows. None when no integer begins here. -/
def withoutLeadingZeros? (cs : List Char) : Option (List Char) :=
  if cs.head? = some '0' then
    let zeros := cs.takeWhile fun c => c = '0' ∨ c = '_'
    match cs.drop zeros.length with
    | [] => some (zeros.drop (zeros.length - 1))
    | c :: rest =>
        if c.isDigit ∨ c = '-' then some (c :: rest)
        else if c = '.' then some (zeros.drop (zeros.length - 1) ++ c :: rest)
        else none
  else if cs.head?.any fun c => c.isDigit ∨ c = '-' then some cs
  else none

/-- A numeral without a tail of a point and zeros. -/
def withoutZeroFraction (cs : List Char) : List Char :=
  let whole := cs.takeWhile (· ≠ '.')
  let tail := cs.drop whole.length
  if 2 ≤ tail.length ∧ tail.tail.all (· == '0') then whole else cs

/-- An integer in its one notation: a minus sign if it is negative, and digits without a
    zero in front. -/
def canonicalInteger? (cs : List Char) : Option Int :=
  let negative := decide (cs.head? = some '-')
  let digits := if negative then cs.tail else cs
  if digits ≠ [] ∧ digits.all Char.isDigit ∧ (digits.head? = some '0' → digits.length = 1) then
    let size : Int := Nat.ofDigitChars 10 digits 0
    some (if negative then -size else size)
  else none

def integerNumeral? (text : String) : Option Int := do
  let cs := Text.trim Text.isWhiteSpace text.toList
  let unsigned := if cs.head? = some '+' then cs.tail else cs
  if cs.head? = some '+' ∧ unsigned.head? = some '-' then failure
  let digits := withoutZeroFraction (← withoutLeadingZeros? unsigned)
  canonicalInteger? ((withoutUnderscores? digits).getD digits)

/-- An integer has more digits than a text may spell. -/
def isLongNumeral (n : Int) : Bool := Nat.pow 10 digitLimit ≤ n.natAbs

/-- The floating point value that a text spells: with white space around it, or with
    underscores inside. -/
def realNumeral? (text : String) : Option Binary64 :=
  match Binary64.ofNotation? (Text.trim Text.isWhiteSpace text.toList) with
  | some x => some x
  | none => (withoutUnderscores? text.toList).bind Binary64.ofNotation?

end NextOffer.Schema
