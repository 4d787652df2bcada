import NextOffer.Binary64.Notation
import NextOffer.Calendar.Iso
import NextOffer.Json.Parser
import NextOffer.Settings.Setting

/-! # Words of TOML

Keys, strings, numbers, dates and times, each read from the front of a text. The result
comes with the text behind it; none means that the text is malformed.
-/

namespace NextOffer.Toml

def isBlank (c : Char) : Bool := c == ' ' || c == '\t'

def skipBlanks (cs : List Char) : List Char := cs.dropWhile isBlank

/-- Control characters other than the tab, which stand nowhere but at the end of a line. -/
def isControl (c : Char) : Bool := (c.toNat < 0x20 && c != '\t') || c.toNat == 0x7f

def isBare (c : Char) : Bool := c.isAlphanum || c == '-' || c == '_'

/-- A comment up to the end of its line, if there is one. -/
def skipComment (cs : List Char) : Option (List Char) :=
  if cs.head? = some '#' then
    let comment := cs.tail.takeWhile (· != '\n')
    if comment.any isControl then none else some (cs.tail.drop comment.length)
  else some cs

/-- Blanks, line ends and comments; `fuel` bounds the number of comments. -/
def skipLines : Nat → List Char → Option (List Char)
  | 0, cs => some cs
  | fuel + 1, cs =>
      let rest := cs.dropWhile fun c => isBlank c || c == '\n'
      if rest.head? = some '#' then (skipComment rest).bind (skipLines fuel) else some rest

/-! ## Strings -/

/-- A string in single quotes behind its opening quote. -/
def literal (cs : List Char) : Option (String × List Char) :=
  let body := cs.takeWhile (· != '\'')
  match cs.drop body.length with
  | [] => none
  | _ :: rest => if body.any isControl then none else some (String.ofList body, rest)

def hexValue? (digits : List Char) : Option Nat :=
  digits.foldlM (fun value digit => (Json.hexDigit? digit).map (value * 16 + ·)) 0

/-- The character with a code of so many hexadecimal digits; no half of a pair has one. -/
def codePoint (count : Nat) (cs : List Char) : Option (Char × List Char) := do
  let digits := cs.take count
  let code ← hexValue? digits
  if digits.length = count ∧ code.isValidChar then
    return (Char.ofNat code, cs.drop count)
  else none

/-- The character that a letter after a backslash stands for. -/
def simpleEscape? (c : Char) : Option Char :=
  if c = '"' ∨ c = '\\' then some c
  else if c = 'b' then some '\x08'
  else if c = 'f' then some '\x0c'
  else if c = 'n' then some '\n'
  else if c = 'r' then some '\r'
  else if c = 't' then some '\t'
  else none

def escape : List Char → Option (Char × List Char)
  | [] => none
  | letter :: rest =>
      if letter = 'u' then codePoint 4 rest
      else if letter = 'U' then codePoint 8 rest
      else (simpleEscape? letter).map fun c => (c, rest)

/-- A backslash at the end of a line, which joins the next line that is not blank. -/
def lineJoin? (cs : List Char) : Option (List Char) :=
  let rest := skipBlanks cs
  if rest = [] ∧ cs ≠ [] then some []
  else if rest.head? = some '\n' then
    some (rest.dropWhile fun c => isBlank c || c == '\n')
  else none

/-- The rest of a string in double quotes on one line; `fuel` bounds the escapes. -/
def basic : Nat → List Char → Option (List Char × List Char)
  | 0, _ => none
  | fuel + 1, cs =>
      let plain := cs.takeWhile fun c => c != '"' && c != '\\' && !isControl c
      match cs.drop plain.length with
      | [] => none
      | c :: rest =>
          if c = '"' then some (plain, rest)
          else if c = '\\' then do
            let (found, rest) ← escape rest
            let (tail, rest) ← basic fuel rest
            return (plain ++ found :: tail, rest)
          else none

/-- Up to two more quotes that close a string of several lines belong to it. -/
def extraQuotes (quote : Char) (body : List Char) (cs : List Char) : List Char × List Char :=
  let extra := (cs.take 2).takeWhile (· == quote)
  (body ++ extra, cs.drop extra.length)

/-- The rest of a string in three double quotes; `fuel` bounds its quotes and escapes. -/
def multiline : Nat → List Char → Option (List Char × List Char)
  | 0, _ => none
  | fuel + 1, cs =>
      let plain := cs.takeWhile fun c =>
        c != '"' && c != '\\' && (!isControl c || c == '\n')
      match cs.drop plain.length with
      | [] => none
      | c :: rest =>
          if c = '"' then
            if ['"', '"'].isPrefixOf rest then some (extraQuotes '"' plain (rest.drop 2))
            else do
              let (tail, rest) ← multiline fuel rest
              return (plain ++ c :: tail, rest)
          else if c = '\\' then
            match lineJoin? rest with
            | some rest => do
                let (tail, rest) ← multiline fuel rest
                return (plain ++ tail, rest)
            | none => do
                let (found, rest) ← escape rest
                let (tail, rest) ← multiline fuel rest
                return (plain ++ found :: tail, rest)
          else none

/-- The rest of a string in three single quotes. -/
def multilineLiteral : List Char → Option (List Char × List Char)
  | [] => none
  | c :: rest =>
      if ['\'', '\'', '\''].isPrefixOf (c :: rest) then
        some (extraQuotes '\'' [] (rest.drop 2))
      else if isControl c && c != '\n' then none
      else (multilineLiteral rest).map fun found => (c :: found.1, found.2)

def skipLineEnd (cs : List Char) : List Char := if cs.head? = some '\n' then cs.tail else cs

def string (cs : List Char) : Option (String × List Char) :=
  let found :=
    if "\"\"\"".toList.isPrefixOf cs then multiline (cs.length + 1) (skipLineEnd (cs.drop 3))
    else if "'''".toList.isPrefixOf cs then multilineLiteral (skipLineEnd (cs.drop 3))
    else if cs.head? = some '"' then basic (cs.length + 1) cs.tail
    else (literal cs.tail).map fun found => (found.1.toList, found.2)
  found.map fun found => (String.ofList found.1, found.2)

/-! ## Keys -/

def keyPart (cs : List Char) : Option (String × List Char) :=
  let bare := cs.takeWhile isBare
  if bare ≠ [] then some (String.ofList bare, cs.drop bare.length)
  else if cs.head? = some '"' then
    (basic (cs.length + 1) cs.tail).map fun found => (String.ofList found.1, found.2)
  else if cs.head? = some '\'' then literal cs.tail
  else none

/-- The parts of a key with points between them; `fuel` bounds their number. -/
def keyParts : Nat → List Char → Option (List String × List Char)
  | 0, _ => none
  | fuel + 1, cs => do
      let (part, rest) ← keyPart cs
      let rest := skipBlanks rest
      if rest.head? = some '.' then
        let (parts, rest) ← keyParts fuel (skipBlanks rest.tail)
        return (part :: parts, rest)
      else return ([part], rest)

def key (cs : List Char) : Option (List String × List Char) := keyParts (cs.length + 1) cs

/-! ## Numbers -/

/-- Digits with single underscores between them, without the underscores. -/
def digitRun (isDigit : Char → Bool) : List Char → List Char × List Char
  | [] => ([], [])
  | c :: rest =>
      if isDigit c then
        let found := digitRun isDigit rest
        (c :: found.1, found.2)
      else if c = '_' ∧ rest.head?.any isDigit then digitRun isDigit rest
      else ([], c :: rest)

def digits? (isDigit : Char → Bool) (cs : List Char) : Option (List Char × List Char) :=
  if cs.head?.any isDigit then some (digitRun isDigit cs) else none

def valueIn (base : Nat) (digits : List Char) : Nat :=
  digits.foldl (fun value digit => value * base + (Json.hexDigit? digit).getD 0) 0

/-- An integer in base 16, 8 or 2 with its mark. -/
def based? (cs : List Char) : Option (Int × List Char) := do
  let base ←
    if "0x".toList.isPrefixOf cs then some 16
    else if "0o".toList.isPrefixOf cs then some 8
    else if "0b".toList.isPrefixOf cs then some 2
    else none
  let isDigit (c : Char) : Bool := (Json.hexDigit? c).any (· < base)
  let (digits, rest) ← digits? isDigit (cs.drop 2)
  return ((valueIn base digits : Int), rest)

/-- A fraction behind its point, or nothing. -/
def fraction (cs : List Char) : List Char × List Char :=
  if cs.head? = some '.' then (digits? Char.isDigit cs.tail).getD ([], cs) else ([], cs)

/-- An exponent with a letter and a sign, or nothing. -/
def exponent? (cs : List Char) : Option (Int × List Char) :=
  if cs.head? = some 'e' ∨ cs.head? = some 'E' then do
    let (negative, rest) := takeSign cs.tail
    let (digits, rest) ← digits? Char.isDigit rest
    let power : Int := Nat.ofDigitChars 10 digits 0
    return (if negative then -power else power, rest)
  else none

/-- A decimal number; with a fraction or an exponent it is a floating point value. -/
def decimal? (cs : List Char) : Option (Number × List Char) := do
  let (negative, body) := takeSign cs
  let (whole, rest) ←
    if body.head? = some '0' then some (['0'], body.tail) else digits? Char.isDigit body
  let (part, rest) := fraction rest
  match exponent? rest with
  | some (power, rest) => return (.real (Binary64.ofParts negative whole part power), rest)
  | none =>
      if part = [] then
        let size : Int := Nat.ofDigitChars 10 whole 0
        return (.int (if negative then -size else size), rest)
      else return (.real (Binary64.ofParts negative whole part 0), rest)

/-- An infinity or a NaN with an optional sign. -/
def special? (cs : List Char) : Option (Number × List Char) :=
  let (negative, body) := takeSign cs
  if "inf".toList.isPrefixOf body then some (.real (.infinity negative), body.drop 3)
  else if "nan".toList.isPrefixOf body then some (.real .nan, body.drop 3)
  else none

/-- A number in front of a text. A decimal integer with too many digits is none. -/
def number? (cs : List Char) : Option (Number × List Char) :=
  match based? cs with
  | some (n, rest) => some (.int n, rest)
  | none => ((decimal? cs).filter fun found => found.1.isWritable).or (special? cs)

/-! ## Dates and times -/

/-- A time of day with seconds and an optional fraction. -/
def clock? (cs : List Char) : Option (List Char) := do
  let (hour, cs) ← Calendar.digits? 2 cs
  let (minute, cs) ← Calendar.digits? 2 (← Calendar.char? ':' cs)
  let (second, cs) ← Calendar.digits? 2 (← Calendar.char? ':' cs)
  unless hour < 24 ∧ minute < 60 ∧ second < 60 do failure
  if cs.head? = some '.' ∧ cs.tail.head?.any Char.isDigit then
    return cs.tail.dropWhile Char.isDigit
  else return cs

/-- The text behind an offset, if there is one. -/
def skipOffset (cs : List Char) : List Char :=
  let behind : Option (List Char) := do
    unless cs.head? = some '+' ∨ cs.head? = some '-' do failure
    let (hour, rest) ← Calendar.digits? 2 cs.tail
    let (minute, rest) ← Calendar.digits? 2 (← Calendar.char? ':' rest)
    unless hour < 24 ∧ minute < 60 do failure
    return rest
  if cs.head? = some 'Z' ∨ cs.head? = some 'z' then cs.tail else behind.getD cs

/-- A date with an optional time of day. A month or day that no month has is no date at
    all; a day or year that the calendar lacks makes the text malformed. -/
def date? (cs : List Char) : Option (Option (MomentKind × List Char)) := do
  let (year, month, day, rest) ← Calendar.dateParts? cs
  unless 1 ≤ month ∧ month ≤ 12 ∧ 1 ≤ day ∧ day ≤ 31 do failure
  if (Date.of? year month day).isNone then return none
  let separated := rest.head? = some 'T' ∨ rest.head? = some 't' ∨ rest.head? = some ' '
  match (if separated then clock? rest.tail else none) with
  | some behind => return some (.dateTime, skipOffset behind)
  | none => return some (.date, rest)

end NextOffer.Toml
