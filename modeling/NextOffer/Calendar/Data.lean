import NextOffer.Calendar.Iso
import NextOffer.Binary64.Notation
import NextOffer.Number

/-! # Points in time as data

What counts as a point in time in a record: an ISO text, a date alone, or seconds since
the start of 1970 in universal time as a number or as digits. Large counts are
milliseconds.
-/

namespace NextOffer

namespace Calendar

inductive MomentFault where
  /-- No text of a date, with the first thing that is wrong with it. -/
  | unreadable (reason : String)
  | notANumber
  /-- Before the year 0. -/
  | tooEarly
  /-- Past the year 9999. -/
  | tooLate
  /-- In the year 0, which no date has. -/
  | yearZero
  deriving DecidableEq, Repr

def MomentFault.message : MomentFault → String
  | unreadable reason => reason
  | notANumber => "NaN values not permitted"
  | tooEarly => "dates before 0000 are not supported as unix timestamps"
  | tooLate => "dates after 9999 are not supported as unix timestamps"
  | yearZero => "year 0 is out of range"

/-- A date in front of a text, also one of the year 0, or what is wrong with it. -/
def leadingDate (text : String) : Except String (Nat × Nat × Nat × List Char) := do
  if text.utf8ByteSize < 10 then throw "input is too short"
  let cs := text.toList
  let some (year, cs) := digits? 4 cs | throw "invalid character in year"
  let some cs := char? '-' cs | throw "invalid date separator, expected \x60-\x60"
  let some (month, cs) := digits? 2 cs | throw "invalid character in month"
  let some cs := char? '-' cs | throw "invalid date separator, expected \x60-\x60"
  let some (day, cs) := digits? 2 cs | throw "invalid character in day"
  if month < 1 ∨ 12 < month then throw "month value is outside expected range of 1-12"
  if day < 1 ∨ monthLength year month < day then throw "day value is outside expected range"
  return (year, month, day, cs)

/-- An offset up to the end of a text: `Z`, or hours and minutes with or without a colon. -/
def dataOffset? (cs : List Char) : Option (Option Offset) :=
  if cs = [] then some none
  else if cs = ['Z'] ∨ cs = ['z'] then some (some Offset.universal)
  else do
    let negative := cs.head? = some '-' ∨ cs.head? = some '\u2212'
    unless negative ∨ cs.head? = some '+' do failure
    let (hours, cs) ← digits? 2 cs.tail
    let (minutes, cs) ← digits? 2 ((char? ':' cs).getD cs)
    unless cs = [] ∧ minutes < 60 do failure
    let size : Int := hours * 3600 + minutes * 60
    some (← Offset.of? ((if negative then -size else size) * 1000000))

/-- The seconds behind a colon with their fraction, or nothing. -/
def dataSeconds? (cs : List Char) : Option (Nat × Fin 1000000 × List Char) :=
  if cs.head? = some ':' then do
    let (second, cs) ← digits? 2 cs.tail
    return (second, fraction cs)
  else some (0, Timestamp.micros 0, cs)

/-- The time of day and the offset behind a date. -/
def dataClock? (cs : List Char) : Option (Fin 86400 × Fin 1000000 × Option Offset) := do
  let separator ← cs.head?
  unless separator ∈ ['T', 't', ' ', '_'] do failure
  let (hour, cs) ← digits? 2 cs.tail
  let (minute, cs) ← digits? 2 (← char? ':' cs)
  let (second, microsecond, cs) ← dataSeconds? cs
  return (← Timestamp.clock? hour minute second, microsecond, ← dataOffset? cs)

def largestSecondCount : Nat := 20000000000

/-- A count of seconds in digits, with a sign. With a point it is a floating point value
    and may have an exponent. Counts of more than 64 bits are none. -/
def count? (text : String) : Option Number :=
  let (negative, body) := takeSign text.toList
  let whole := leadingDigits body
  let rest := body.drop whole.length
  let size : Int := Nat.ofDigitChars 10 whole 0
  if size ≥ Nat.pow 2 63 then none
  else if rest.head? = some '.' then (Binary64.ofNotation? text.toList).map .real
  else if whole ≠ [] ∧ rest = [] then some (.int (if negative then -size else size))
  else none

end Calendar

namespace Timestamp

open Calendar

/-- The point so many seconds after the start of 1970. -/
def ofSeconds (seconds : Int) (microsecond : Fin 1000000) : Except MomentFault Timestamp :=
  if seconds < -62167219200 then .error .tooEarly
  else if 253402300799 < seconds then .error .tooLate
  else
    match ofUnixSeconds? seconds microsecond (some Offset.universal) with
    | some t => .ok t
    | none => .error .yearZero

/-- The point a whole count of seconds or milliseconds after the start of 1970, and some
    microseconds more. -/
def ofCount (inMilliseconds : Bool) (count : Int) (more : Nat) : Except MomentFault Timestamp :=
  let seconds := if inMilliseconds then count / 1000 else count
  let microseconds := more + if inMilliseconds then (count % 1000).toNat * 1000 else 0
  ofSeconds (seconds + microseconds / 1000000) (micros microseconds)

/-- The point at a floating point count: its floor, and its fraction rounded to
    microseconds, a half upwards. -/
def ofReal (x : Binary64) : Except MomentFault Timestamp :=
  match x with
  | .nan => .error .notANumber
  | .infinity negative => .error (if negative then .tooEarly else .tooLate)
  | .finite negative quanta _ =>
      let position := Binary64.signed negative quanta
      let inMilliseconds := decide (largestSecondCount * Binary64.unit < quanta)
      let part := Binary64.nearest (position % Binary64.unit).toNat 1
      let scaled := Binary64.nearest (part * if inMilliseconds then 1000 else 1000000) 1
      ofCount inMilliseconds (position / Binary64.unit)
        ((2 * scaled + Binary64.unit) / (2 * Binary64.unit))

/-- The point at a count of seconds, or of milliseconds when the count is large. -/
def ofNumber : Number → Except MomentFault Timestamp
  | .int n => ofCount (decide (largestSecondCount < n.natAbs)) n 0
  | .real x => ofReal x

/-- The point at a date, with or without a time of day behind it. -/
def ofDatedText (text : String) : Except MomentFault Timestamp := do
  let (year, month, day, rest) ← (leadingDate text).mapError .unreadable
  let clock ←
    if rest = [] then pure (firstSecond, micros 0, none)
    else match dataClock? rest with
      | some clock => pure clock
      | none => throw (.unreadable "unexpected extra characters at the end of the input")
  match Date.of? year month day with
  | some date => return ⟨date, clock.1, clock.2.1, clock.2.2⟩
  | none => throw .yearZero

/-- Read a point in time from a text, or tell why it is none. A text without a date may be
    a count; a floating point count that is out of range has the fault of the text. -/
def ofDataText (text : String) : Except MomentFault Timestamp :=
  match ofDatedText text, count? text with
  | .error (.unreadable reason), some count =>
      match ofNumber count, count with
      | .ok t, _ => .ok t
      | .error .yearZero, _ => .error .yearZero
      | .error fault, .int _ => .error (.unreadable fault.message)
      | .error _, .real _ => .error (.unreadable reason)
  | result, _ => result

end Timestamp

end NextOffer
