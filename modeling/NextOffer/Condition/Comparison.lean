import NextOffer.Binary64.Notation
import NextOffer.Json.Printer
import NextOffer.Text.Blank
import NextOffer.Text.Columns
import NextOffer.Text.Digit
import NextOffer.Text.LetterCase
import NextOffer.Vocabulary

/-! # Comparing values

The order operators compare floating point values, to which both sides are converted;
what does not convert is a NaN, and a NaN satisfies no operator. The other operators
compare texts in lower case, and fail when there is no text since an integer has too many
digits. A missing or null value satisfies no operator.
-/

namespace NextOffer

namespace Text

/-- A floating point value in any script's digits, with blanks around it and with
    underscores between digits. -/
def toBinary64? (cs : List Char) : Option Binary64 :=
  (dropUnderscores? false ((trim isBlank cs).map plainDigit)).bind Binary64.ofNotation?

end Text

namespace Json.Value

/-- The value on the scale of the order operators: truth is one, blank text is zero, and
    what is no number is a NaN. -/
def measure : Value → Except ArithmeticFault Binary64
  | .bool value => .ok (Binary64.ofInt (if value then 1 else 0))
  | .number x => x.toBinary64?
  | .string text =>
      if Text.trim Text.isBlank text.toList = [] then .ok (Binary64.zero false)
      else .ok ((Text.toBinary64? text.toList).getD .nan)
  | _ => .ok .nan

mutual

/-- The spelling of a value as one text: constants and numbers as an author writes them,
    the items of an array with commas between them, and an object as JSON with sorted
    names. -/
def flatChars : Value → List Char
  | .null => "null".toList
  | .bool value => if value then "true".toList else "false".toList
  | .number x => x.plainChars
  | .string text => text.toList
  | .array items => [','].intercalate (flatItems items)
  | .object entries => Form.spaced.chars 0 (.sorted (.object entries))

def flatItems : List Value → List (List Char)
  | [] => []
  | item :: rest => flatChars item :: flatItems rest

end

def flat (value : Value) : String := String.ofList value.flatChars

/-- The spelling in lower case. -/
def folded (value : Value) : List Char := Text.lower value.flatChars

/-- The text in lower case that the text operators compare, of a value that can be
    written. -/
def foldedText (value : Value) : Except ArithmeticFault (List Char) :=
  if value.isWritable then .ok value.folded else .error .tooManyDigits

/-- Whether one of the values has a text. Later values are not looked at once one has. -/
def anyFolded (text : List Char) : List Value → Except ArithmeticFault Bool
  | [] => .ok false
  | item :: rest => do
      if (← item.foldedText) == text then return true else anyFolded text rest

end Json.Value

namespace Operator

/-- The order that an operator asks for, if it asks for one. -/
def order? : Operator → Option (Binary64 → Binary64 → Bool)
  | .greater => some fun x y => (Number.real y).lt (.real x)
  | .less => some fun x y => (Number.real x).lt (.real y)
  | .greaterOrEqual => some fun x y => (Number.real y).le (.real x)
  | .lessOrEqual => some fun x y => (Number.real x).le (.real y)
  | _ => none

/-- Whether an operator holds between a value that is present and a target. -/
def compare (op : Operator) (value target : Json.Value) : Except ArithmeticFault Bool :=
  match op.order? with
  | some holds => do return holds (← value.measure) (← target.measure)
  | none =>
      match op, target with
      | .contains, target => do
          return Text.occursIn (← target.foldedText) (← value.foldedText)
      | .isIn, .array items => do Json.Value.anyFolded (← value.foldedText) items
      | .isIn, _ => .ok false
      | _, target => do return (← value.foldedText) == (← target.foldedText)

end Operator

/-- Whether the operator with this sign holds between a value and a target. An unknown
    sign never holds, and neither does a missing or null value. -/
def satisfies (value? : Option Json.Value) (sign : String) (target : Json.Value) :
    Except ArithmeticFault Bool :=
  match value?, Operator.ofWord? sign with
  | none, _ => .ok false
  | some .null, _ => .ok false
  | _, none => .ok false
  | some value, some op => op.compare value target

end NextOffer
