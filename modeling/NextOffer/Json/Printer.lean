import NextOffer.Json.Value
import NextOffer.Text.Quoted

/-! # Writing JSON

One printer for all forms: on one line with chosen separators, or indented; with all
of Unicode as it is, or in basic Latin with escapes. Numbers keep their kind: `5` and
`5.0` stay apart. A NaN and the infinities have names of their own. A value is written
only when all its integers can be.
-/

namespace NextOffer.Json

structure Form where
  colon : List Char
  comma : List Char
  /-- Blanks for each level, when every item has a line of its own. -/
  indent : Option Nat
  escapeWide : Bool

namespace Form

/-- One line with blanks after separators, in basic Latin. -/
def spaced : Form := ⟨[':', ' '], [',', ' '], none, true⟩

/-- One line without blanks, Unicode as it is. -/
def compact : Form := ⟨[':'], [','], none, false⟩

/-- Two blanks a level, Unicode as it is. -/
def indented : Form := ⟨[':', ' '], [','], some 2, false⟩

/-- Two blanks a level, in basic Latin. -/
def indentedLatin : Form := ⟨[':', ' '], [','], some 2, true⟩

end Form

def unitEscape (unit : Nat) : List Char := '\\' :: 'u' :: Text.hex 4 unit

/-- The escape of a character: one code unit, or a pair for a character beyond the
    first sixteen bits. -/
def wideEscape (c : Char) : List Char :=
  if c.toNat < 0x10000 then unitEscape c.toNat
  else
    unitEscape (0xd800 + (c.toNat - 0x10000) / 0x400) ++
      unitEscape (0xdc00 + (c.toNat - 0x10000) % 0x400)

def charText (escapeWide : Bool) (c : Char) : List Char :=
  if c = '"' then ['\\', '"']
  else if c = '\\' then ['\\', '\\']
  else if c = '\n' then ['\\', 'n']
  else if c = '\r' then ['\\', 'r']
  else if c = '\t' then ['\\', 't']
  else if c = '\x08' then ['\\', 'b']
  else if c = '\x0c' then ['\\', 'f']
  else if c.toNat < 0x20 then unitEscape c.toNat
  else if escapeWide && 0x7f ≤ c.toNat then wideEscape c
  else [c]

def stringText (escapeWide : Bool) (text : String) : List Char :=
  '"' :: text.toList.flatMap (charText escapeWide) ++ ['"']

/-- The spelling of a number; the special values have names. -/
def numberText : Number → List Char
  | .int n => signedDigits n
  | .real .nan => "NaN".toList
  | .real (.infinity negative) => (if negative then ['-'] else []) ++ "Infinity".toList
  | .real x => x.chars

namespace Form

/-- What stands before an item at some depth: a line of its own, or nothing. -/
def opening (form : Form) (depth : Nat) : List Char :=
  match form.indent with
  | none => []
  | some blanks => '\n' :: List.replicate (blanks * depth) ' '

mutual

/-- The spelling of a value, whatever its integers. -/
def chars (form : Form) (depth : Nat) : Value → List Char
  | .null => "null".toList
  | .bool true => "true".toList
  | .bool false => "false".toList
  | .number x => numberText x
  | .string text => stringText form.escapeWide text
  | .array [] => ['[', ']']
  | .array (item :: rest) =>
      '[' :: form.opening (depth + 1) ++ form.chars (depth + 1) item ++
        form.itemsChars (depth + 1) rest ++ form.opening depth ++ [']']
  | .object [] => ['\x7b', '\x7d']
  | .object ((name, value) :: rest) =>
      '\x7b' :: form.opening (depth + 1) ++ stringText form.escapeWide name ++ form.colon ++
        form.chars (depth + 1) value ++ form.entriesChars (depth + 1) rest ++
        form.opening depth ++ ['\x7d']

/-- The items after the first, each after a comma. -/
def itemsChars (form : Form) (depth : Nat) : List Value → List Char
  | [] => []
  | item :: rest =>
      form.comma ++ form.opening depth ++ form.chars depth item ++ form.itemsChars depth rest

/-- The entries after the first, each after a comma. -/
def entriesChars (form : Form) (depth : Nat) : List (String × Value) → List Char
  | [] => []
  | (name, value) :: rest =>
      form.comma ++ form.opening depth ++ stringText form.escapeWide name ++ form.colon ++
        form.chars depth value ++ form.entriesChars depth rest

end

/-- The spelling as a text, of a value that can be written. -/
def text (form : Form) (value : Value) : String := String.ofList (form.chars 0 value)

def render (form : Form) (value : Value) : Except ArithmeticFault String :=
  if value.isWritable then .ok (form.text value) else .error .tooManyDigits

end Form

end NextOffer.Json
