import NextOffer.Binary64.Notation
import NextOffer.Json.Value

/-! # Reading JSON

A recursive reader over the remaining text. A failure carries what remained at the
place of the flaw, from which the position is computed once at the end. Numbers past
the largest floating point value become infinities; `NaN` and `Infinity` are values.
Of two entries with one name the last value counts, at the place of the first. Integers
with too many digits, and arrays and objects on too many levels, are refused.
-/

namespace NextOffer.Json

inductive Flaw where
  | byteOrderMark
  | value
  | propertyName
  | colon
  | comma
  | extraData
  | unterminated
  | control
  | escape
  | unicodeEscape
  | tooManyDigits (count : Nat)
  | arrayTooDeep
  | objectTooDeep
  deriving DecidableEq, Repr

namespace Flaw

/-- The flaw breaks a limit, not the grammar. -/
def isExcess : Flaw → Bool
  | tooManyDigits _ => true
  | arrayTooDeep => true
  | objectTooDeep => true
  | _ => false

def message : Flaw → String
  | .byteOrderMark => "Unexpected UTF-8 BOM (decode using utf-8-sig)"
  | .value => "Expecting value"
  | .propertyName => "Expecting property name enclosed in double quotes"
  | .colon => "Expecting ':' delimiter"
  | .comma => "Expecting ',' delimiter"
  | .extraData => "Extra data"
  | .unterminated => "Unterminated string starting at"
  | .control => "Invalid control character at"
  | .escape => "Invalid \\escape"
  | .unicodeEscape => "Invalid \\uXXXX escape"
  | .tooManyDigits count =>
      s!"Exceeds the limit ({digitLimit} digits) for integer string conversion: value has " ++
        s!"{count} digits; use sys.set_int_max_str_digits() to increase the limit"
  | .arrayTooDeep =>
      "maximum recursion depth exceeded while decoding a JSON array from a unicode string"
  | .objectTooDeep =>
      "maximum recursion depth exceeded while decoding a JSON object from a unicode string"

end Flaw

/-- A flaw and the text that remained where it was found. -/
structure Misreading where
  flaw : Flaw
  remaining : List Char
  deriving DecidableEq, Repr

def isGap (c : Char) : Bool := c == ' ' || c == '\t' || c == '\n' || c == '\r'

def skipGap (cs : List Char) : List Char := cs.dropWhile isGap

def hexDigit? (c : Char) : Option Nat :=
  if c.isDigit then some (c.toNat - 0x30)
  else if 'a' ≤ c ∧ c ≤ 'f' then some (c.toNat - 0x61 + 10)
  else if 'A' ≤ c ∧ c ≤ 'F' then some (c.toNat - 0x41 + 10)
  else none

/-- Four hexadecimal digits with at least one character behind them. -/
def hexUnit? : List Char → Option (Nat × List Char)
  | a :: b :: c :: d :: next :: rest => do
      let unit := (((← hexDigit? a) * 16 + (← hexDigit? b)) * 16 + (← hexDigit? c)) * 16
        + (← hexDigit? d)
      return (unit, next :: rest)
  | _ => none

def isHighUnit (unit : Nat) : Bool := 0xd800 ≤ unit && unit < 0xdc00

def isLowUnit (unit : Nat) : Bool := 0xdc00 ≤ unit && unit < 0xe000

/-- The second half of a pair in front of a text. -/
def lowUnit? : List Char → Option (Nat × List Char)
  | '\\' :: 'u' :: rest => (hexUnit? rest).filter fun found => isLowUnit found.1
  | _ => none

/-- The character after `\u`: one code unit, or a pair. A half without its partner has no
    character and becomes the replacement character. -/
def unicodeEscape (cs : List Char) : Except Misreading (Char × List Char) :=
  match hexUnit? cs with
  | none => .error ⟨.unicodeEscape, 'u' :: cs⟩
  | some (unit, rest) =>
      if isHighUnit unit then
        match lowUnit? rest with
        | some (low, rest) =>
            .ok (Char.ofNat (0x10000 + (unit - 0xd800) * 0x400 + (low - 0xdc00)), rest)
        | none => .ok ('\ufffd', rest)
      else if isLowUnit unit then .ok ('\ufffd', rest)
      else .ok (Char.ofNat unit, rest)

/-- The character that a letter after a backslash stands for. -/
def simpleEscape? (c : Char) : Option Char :=
  if c = '"' ∨ c = '\\' ∨ c = '/' then some c
  else if c = 'b' then some '\x08'
  else if c = 'f' then some '\x0c'
  else if c = 'n' then some '\n'
  else if c = 'r' then some '\r'
  else if c = 't' then some '\t'
  else none

def isPlain (c : Char) : Bool := c != '"' && c != '\\' && 0x20 ≤ c.toNat

/-- The rest of a string up to its closing quote. `opened` is the text from the opening
    quote on; `fuel` bounds the number of escapes. -/
def stringBody (opened : List Char) : Nat → List Char → Except Misreading (List Char × List Char)
  | 0, _ => .error ⟨.unterminated, opened⟩
  | fuel + 1, cs =>
      let plain := cs.takeWhile isPlain
      match cs.dropWhile isPlain with
      | [] => .error ⟨.unterminated, opened⟩
      | c :: rest =>
          if c = '"' then .ok (plain, rest)
          else if c = '\\' then
            match rest with
            | [] => .error ⟨.unterminated, opened⟩
            | letter :: after => do
                let (char, after) ←
                  if letter = 'u' then unicodeEscape after
                  else
                    match simpleEscape? letter with
                    | some char => .ok (char, after)
                    | none => .error ⟨.escape, c :: rest⟩
                let (tail, after) ← stringBody opened fuel after
                return (plain ++ char :: tail, after)
          else .error ⟨.control, c :: rest⟩

def string (cs : List Char) : Except Misreading (String × List Char) := do
  let (chars, rest) ← stringBody ('"' :: cs) (cs.length + 1) cs
  return (String.ofList chars, rest)

/-- A number in front of a text: an integer, or with a fraction or an exponent a floating
    point value. No digit follows a leading zero. -/
def number? (cs : List Char) : Option (Number × List Char) :=
  let negative := cs.head? = some '-'
  let body := if negative then cs.tail else cs
  let whole := if body.head? = some '0' then ['0'] else leadingDigits body
  if whole = [] then none
  else
    let rest := body.drop whole.length
    let fraction := if rest.head? = some '.' then leadingDigits rest.tail else []
    let rest := if fraction = [] then rest else rest.drop (fraction.length + 1)
    match takeExponent? rest with
    | some (exponent, rest) =>
        some (.real (Binary64.ofParts negative whole fraction exponent), rest)
    | none =>
        if fraction = [] then
          let magnitude : Int := Nat.ofDigitChars 10 whole 0
          some (.int (if negative then -magnitude else magnitude), rest)
        else some (.real (Binary64.ofParts negative whole fraction 0), rest)

def words : List (List Char × Value) := [
  ("null".toList, .null),
  ("true".toList, .bool true),
  ("false".toList, .bool false),
  ("NaN".toList, .number (.real .nan)),
  ("Infinity".toList, .number (.real (.infinity false))),
  ("-Infinity".toList, .number (.real (.infinity true)))]

/-- A word or a number in front of a text. -/
def atom (cs : List Char) : Except Misreading (Value × List Char) :=
  match words.find? fun word => word.1.isPrefixOf cs with
  | some (word, value) => .ok (value, cs.drop word.length)
  | none =>
      match number? cs with
      | none => .error ⟨.value, cs⟩
      | some (.real x, rest) => .ok (.number (.real x), rest)
      | some (.int n, rest) =>
          if n.natAbs < Nat.pow 10 digitLimit then .ok (.int n, rest)
          else .error ⟨.tooManyDigits (Decimal.digitCount n.natAbs), cs⟩

mutual

/-- A value in front of a text, with arrays and objects on at most so many levels. -/
def value (levels : Nat) : Nat → List Char → Except Misreading (Value × List Char)
  | 0, cs => .error ⟨.value, cs⟩
  | _ + 1, [] => .error ⟨.value, []⟩
  | fuel + 1, c :: rest =>
      if c = '"' then do
        let (text, rest) ← string rest
        return (.string text, rest)
      else if c = '[' then
        if levels = 0 then .error ⟨.arrayTooDeep, c :: rest⟩
        else if (skipGap rest).head? = some ']' then .ok (.array [], (skipGap rest).tail)
        else do
          let (items, rest) ← items (levels - 1) fuel (skipGap rest)
          return (.array items, rest)
      else if c = '\x7b' then
        if levels = 0 then .error ⟨.objectTooDeep, c :: rest⟩
        else if (skipGap rest).head? = some '\x7d' then .ok (.object [], (skipGap rest).tail)
        else do
          let (entries, rest) ← entries (levels - 1) fuel (skipGap rest)
          return (.object (Fields.ofWrites entries), rest)
      else atom (c :: rest)

def items (levels : Nat) : Nat → List Char → Except Misreading (List Value × List Char)
  | 0, cs => .error ⟨.value, cs⟩
  | fuel + 1, cs => do
      let (item, rest) ← value levels fuel cs
      let rest := skipGap rest
      if rest.head? = some ']' then return ([item], rest.tail)
      else if rest.head? = some ',' then
        let (others, rest) ← items levels fuel (skipGap rest.tail)
        return (item :: others, rest)
      else throw ⟨.comma, rest⟩

def entries (levels : Nat) : Nat → List Char → Except Misreading (List (String × Value) × List Char)
  | 0, cs => .error ⟨.value, cs⟩
  | fuel + 1, cs => do
      unless cs.head? = some '"' do throw ⟨.propertyName, cs⟩
      let (name, rest) ← string cs.tail
      let rest := skipGap rest
      unless rest.head? = some ':' do throw ⟨.colon, rest⟩
      let (item, rest) ← value levels fuel (skipGap rest.tail)
      let rest := skipGap rest
      if rest.head? = some '\x7d' then return ([(name, item)], rest.tail)
      else if rest.head? = some ',' then
        let (others, rest) ← entries levels fuel (skipGap rest.tail)
        return ((name, item) :: others, rest)
      else throw ⟨.comma, rest⟩

end

/-- Read a whole text with arrays and objects on at most so many levels. -/
def read (levels : Nat) (cs : List Char) : Except Misreading Value := do
  if cs.head? = some '\ufeff' then throw ⟨.byteOrderMark, cs⟩
  let (result, rest) ← value levels (2 * cs.length + 2) (skipGap cs)
  let rest := skipGap rest
  if rest = [] then return result else throw ⟨.extraData, rest⟩

/-- A flaw with the number of characters in front of it, and its line and column. -/
structure ParseError where
  flaw : Flaw
  offset : Nat
  line : Nat
  column : Nat
  deriving DecidableEq, Repr

namespace ParseError

/-- The flaw and its place in words; what breaks a limit has no place. -/
def message (error : ParseError) : String :=
  if error.flaw.isExcess then error.flaw.message
  else s!"{error.flaw.message}: line {error.line} column {error.column} (char {error.offset})"

end ParseError

/-- Where in the whole text a flaw was found. -/
def Misreading.locate (whole : List Char) (misreading : Misreading) : ParseError :=
  let before := whole.take (whole.length - misreading.remaining.length)
  { flaw := misreading.flaw
    offset := before.length
    line := before.count '\n' + 1
    column := (before.reverse.takeWhile (· != '\n')).length + 1 }

/-- Read a text with arrays and objects on at most so many levels. -/
def parseWithin (levels : Nat) (text : String) : Except ParseError Value :=
  (read levels text.toList).mapError (·.locate text.toList)

def parse (text : String) : Except ParseError Value := parseWithin text.length text

end NextOffer.Json
