import NextOffer.Binary64.Rounded
import NextOffer.Text.Columns

/-! # Slots of messages

How an argument is laid out: flags, a width, and a number of places. A hyphen puts it at
the left, a plus or a blank stands in for the sign, a zero fills numbers with zeros, and a
hash keeps marks and points.
-/

namespace NextOffer.Log

structure Slot where
  flags : List Char
  width : Nat
  places : Option Nat
  deriving DecidableEq, Repr

namespace Slot

def has (slot : Slot) (flag : Char) : Bool := slot.flags.contains flag

/-- Cut a text to the places of a slot. -/
def cut (slot : Slot) (text : String) : String := slot.places.elim text (Text.cut · text)

/-- Fill a text up to the width of a slot. -/
def align (slot : Slot) (text : String) : String :=
  if slot.has '-' then Text.left slot.width text else Text.right slot.width text

/-- Fill a number up to the width of a slot, if zeros are wanted behind its sign and the
    mark of its base. -/
def alignNumber (slot : Slot) (mark cs : List Char) : String :=
  let (sign, digits) :=
    if cs.head? = some '-' then (['-'], cs.tail)
    else if slot.has '+' then (['+'], cs)
    else if slot.has ' ' then ([' '], cs)
    else ([], cs)
  if slot.has '0' && !slot.has '-' then
    let zeros := List.replicate
      (slot.width - sign.length - mark.length - digits.length) '0'
    String.ofList (sign ++ mark ++ zeros ++ digits)
  else slot.align (String.ofList (sign ++ mark ++ digits))

/-- The digits of an integer in a base, at least as many as there are places. -/
def wholeChars (slot : Slot) (base : Nat) (n : Int) : List Char :=
  let digits := Nat.toDigits base n.natAbs
  let zeros := List.replicate (slot.places.getD 0 - digits.length) '0'
  (if n < 0 then ['-'] else []) ++ zeros ++ digits

/-- A floating point value with its places, six if none are wanted. Behind the 1074th place
    there are only zeros. -/
def fixedChars (slot : Slot) (x : Binary64) : List Char :=
  let places := slot.places.getD 6
  if !x.isFinite then x.fixed 0
  else
    let zeros := List.replicate (places - 1074) '0'
    x.fixed (min places 1074) ++ if places = 0 ∧ slot.has '#' then ['.'] else zeros

/-- A floating point value with an exponent and its places. -/
def exponentialChars (slot : Slot) (x : Binary64) : List Char :=
  x.exponential (slot.places.getD 6) (slot.has '#')

def generalChars (slot : Slot) (x : Binary64) : List Char :=
  x.general (slot.places.getD 6) (slot.has '#')

end Slot

end NextOffer.Log
