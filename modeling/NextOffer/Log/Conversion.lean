import NextOffer.Json.Display
import NextOffer.Log.Slot

/-! # Conversions of arguments

A letter tells how an argument becomes text: as it is, with quotes, as an integer in some
base, as a floating point value in some form, or as one character.
-/

namespace NextOffer.Log

inductive ConversionFault where
  | numberRequired (letter : Char) (kind : String)
  | integerRequired (letter : Char) (kind : String)
  | realRequired (kind : String)
  | characterRequired
  | noCharacter
  | placesTooLarge
  | arithmetic (cause : ArithmeticFault)
  deriving DecidableEq, Repr

namespace ConversionFault

def message : ConversionFault → String
  | numberRequired letter kind => s!"%{letter} format: a real number is required, not {kind}"
  | integerRequired letter kind => s!"%{letter} format: an integer is required, not {kind}"
  | realRequired kind => s!"must be real number, not {kind}"
  | characterRequired => "%c requires int or char"
  | noCharacter => "%c arg not in range(0x110000)"
  | placesTooLarge => "precision too large"
  | arithmetic cause => cause.message

end ConversionFault

inductive Conversion where
  /-- A text as it is, other values in their notation. -/
  | plain
  | quoted
  /-- With quotes, in basic Latin. -/
  | latin
  | whole
  | based (base : Nat)
  | fixed
  | exponential
  | general
  | character
  deriving DecidableEq, Repr

namespace Conversion

/-- The conversion of a letter, small or capital. -/
def ofLetter? (letter : Char) : Option Conversion :=
  [('s', plain), ('r', quoted), ('a', latin), ('d', whole), ('i', whole), ('u', whole),
    ('o', based 8), ('x', based 16), ('X', based 16), ('f', fixed), ('F', fixed),
    ('e', exponential), ('E', exponential), ('g', general), ('G', general),
    ('c', character)].lookup letter

end Conversion

def wholePart : Number → Except ArithmeticFault Int
  | .int n => .ok n
  | .real .nan => .error .nanHasNoFloor
  | .real (.infinity _) => .error .infinityHasNoFloor
  | .real x => .ok x.truncate

/-- A number as an argument; truth values count as one and zero. -/
def numberOf? : Json.Value → Option Number
  | .bool value => some (.int (if value then 1 else 0))
  | .number x => some x
  | _ => none

def wholeOf (letter : Char) (value : Json.Value) : Except ConversionFault Int :=
  match numberOf? value with
  | some x => (wholePart x).mapError .arithmetic
  | none => .error (.numberRequired letter value.kindName)

def integerOf (letter : Char) (value : Json.Value) : Except ConversionFault Int :=
  match numberOf? value with
  | some (.int n) => .ok n
  | _ => .error (.integerRequired letter value.kindName)

def realOf (value : Json.Value) : Except ConversionFault Binary64 :=
  match numberOf? value with
  | some x => x.toBinary64?.mapError .arithmetic
  | none => .error (.realRequired value.kindName)

/-- One character as an argument: a text of one, or the code of one. -/
def characterOf (value : Json.Value) : Except ConversionFault String :=
  match value, numberOf? value with
  | .string text, _ => if text.length = 1 then .ok text else .error .characterRequired
  | _, some (.int n) =>
      if 0 ≤ n ∧ n < 0x110000 then .ok (String.singleton (Char.ofNat n.toNat))
      else .error .noCharacter
  | _, _ => .error .characterRequired

/-- What is written of a value, unless an integer in it has too many digits. -/
def written (value : Json.Value) (text : String) : Except ConversionFault String :=
  if value.isWritable then .ok text else .error (.arithmetic .tooManyDigits)

/-- Letters and digits in the case of a letter. -/
def inCase (letter : Char) (cs : List Char) : List Char :=
  if letter.isUpper then cs.map Char.toUpper else cs

/-- The digits of an integer in a base, unless more are wanted than fit together with a
    sign and the mark of the base. Only decimal digits can be too many. -/
def digitsOf (slot : Slot) (base : Nat) (n : Int) : Except ConversionFault (List Char) :=
  if Nat.pow 2 31 ≤ slot.places.getD 0 + 3 then .error .placesTooLarge
  else if base = 10 ∧ !(Number.int n).isWritable then .error (.arithmetic .tooManyDigits)
  else .ok (slot.wholeChars base n)

/-- The text of an argument for a letter with a conversion. -/
def Conversion.text (conversion : Conversion) (slot : Slot) (letter : Char)
    (value : Json.Value) : Except ConversionFault String :=
  let real (form : Binary64 → List Char) : Except ConversionFault String := do
    return slot.alignNumber [] (inCase letter (form (← realOf value)))
  match conversion with
  | .plain => do return slot.align (slot.cut (← written value value.display))
  | .quoted => do return slot.align (slot.cut (← written value value.inspect))
  | .latin => do return slot.align (slot.cut (Text.latin (← written value value.inspect)))
  | .whole => do return slot.alignNumber [] (← digitsOf slot 10 (← wholeOf letter value))
  | .based base => do
      let digits ← digitsOf slot base (← integerOf letter value)
      return slot.alignNumber (if slot.has '#' then ['0', letter] else []) (inCase letter digits)
  | .fixed => real slot.fixedChars
  | .exponential => real slot.exponentialChars
  | .general => real slot.generalChars
  | .character => do return slot.align (← characterOf value)

end NextOffer.Log
