import NextOffer.Calendar.Timestamp

/-! # Reading ISO dates and times

A date is `2026-02-05`, or a day of a week as in `2026-W06-4`, with or without the hyphens.
A time of day is `18:28:08.5+05:30`, with or without the colons, and with any number of
parts left out at the end.
-/

namespace NextOffer

inductive DateFault where
  | unreadable (text : String)
  | yearOutOfRange (year : Int)
  | monthOutOfRange
  | dayOutOfRange
  | hourOutOfRange
  | minuteOutOfRange
  | secondOutOfRange
  /-- An offset of a day or more, in microseconds. -/
  | offsetOutOfRange (micros : Int)
  deriving DecidableEq, Repr

namespace Calendar

def digits? (count : Nat) (cs : List Char) : Option (Nat × List Char) :=
  let digits := cs.take count
  if digits.length = count ∧ digits.all Char.isDigit then
    some (Nat.ofDigitChars 10 digits 0, cs.drop count)
  else none

def char? (c : Char) (cs : List Char) : Option (List Char) :=
  if cs.head? = some c then some cs.tail else none

/-- The first six digits behind a point or a comma, as microseconds. -/
def microseconds (digits : List Char) : Fin 1000000 :=
  Timestamp.micros (Nat.ofDigitChars 10 ((digits ++ List.replicate 6 '0').take 6) 0)

/-- Digits behind a point or a comma, or nothing. -/
def fraction (cs : List Char) : Fin 1000000 × List Char :=
  if cs.head? = some '.' ∨ cs.head? = some ',' then
    let digits := cs.tail.takeWhile Char.isDigit
    if digits = [] then (Timestamp.micros 0, cs)
    else (microseconds digits, cs.tail.drop digits.length)
  else (Timestamp.micros 0, cs)

/-- Year, month and day with hyphens in front of a text, whatever their values. -/
def dateParts? (cs : List Char) : Option (Nat × Nat × Nat × List Char) := do
  let (year, cs) ← digits? 4 cs
  let (month, cs) ← digits? 2 (← char? '-' cs)
  let (day, cs) ← digits? 2 (← char? '-' cs)
  return (year, month, day, cs)

/-! ## Dates -/

/-- The Monday of the first week of a year, which holds the 4th of January. -/
def firstMonday (year : Nat) : Int :=
  dayNumber year 1 4 - weekday (dayNumber year 1 4)

/-- The weeks of a year: 53 when it begins on a Thursday, or as a leap year on a
    Wednesday, and 52 otherwise. -/
def weekCount (year : Nat) : Nat :=
  let first := weekday (dayNumber year 1 1)
  if first = 3 ∨ (first = 2 ∧ isLeap year) then 53 else 52

/-- Year, month and day of a day of a week, counted from 1 for Monday on. The weeks before
    the year 1 have no months. -/
def weekDate? (year week day : Nat) : Option (Int × Nat × Nat) :=
  if 1 ≤ week ∧ week ≤ weekCount year ∧ 1 ≤ day ∧ day ≤ 7 then
    if year = 0 then some (1, 0, 0)
    else some (numbersOfDay (firstMonday year + (week - 1) * 7 + (day - 1)))
  else none

/-- Year, month and day of a date, whatever their values. What follows the day is passed
    over. -/
def isoDate? (cs : List Char) : Option (Int × Nat × Nat) := do
  let (year, cs) ← digits? 4 cs
  let hyphens := decide (cs.head? = some '-')
  let separated? (cs : List Char) := if hyphens then char? '-' cs else some cs
  let cs ← separated? cs
  if cs.head? = some 'W' then
    let (week, cs) ← digits? 2 cs.tail
    if cs = [] then weekDate? year week 1
    else
      let (day, _) ← digits? 1 (← separated? cs)
      weekDate? year week day
  else
    let (month, cs) ← digits? 2 cs
    let (day, _) ← digits? 2 (← separated? cs)
    return (year, month, day)

/-- The length of the date in front of a text. Behind a week without a day, pairs of digits
    are a time of day. -/
def dateLength (cs : List Char) : Nat :=
  let isDigitAt (index : Nat) : Bool := cs[index]?.any Char.isDigit
  if cs.length = 7 then 7
  else if cs[4]? = some '-' then
    if cs[5]? = some 'W' ∧ (cs[8]? ≠ some '-' ∨ isDigitAt 10) then 8 else 10
  else if cs[4]? = some 'W' then
    let digits := ((cs.drop 7).takeWhile Char.isDigit).length
    if digits < 2 then 7 + digits else if digits % 2 = 1 then 7 else 8
  else 8

/-! ## Times of day -/

/-- Hour, minute and second, the microseconds, and the text behind them. -/
structure ClockText where
  numbers : List Nat
  microsecond : Fin 1000000
  rest : List Char

/-- Read at most so many pairs of digits and a fraction. A single byte behind a pair is
    left. -/
def clockText? (colons : Bool) : Nat → List Char → Option ClockText
  | 0, cs =>
      let digits := cs.takeWhile Char.isDigit
      if digits.length < min cs.length 6 then none
      else some ⟨[], microseconds digits, cs.drop digits.length⟩
  | count + 1, cs => do
      let (number, cs) ← digits? 2 cs
      if (String.ofList cs).utf8ByteSize ≤ 1 then return ⟨[number], Timestamp.micros 0, cs⟩
      let next := cs.head?
      let found ←
        if colons ∧ next = some ':' then clockText? colons count cs.tail
        else if next = some '.' ∨ next = some ',' then clockText? colons 0 cs.tail
        else if colons then none
        else clockText? colons count cs
      return { found with numbers := number :: found.numbers }

/-- Read a time of day; colons stand between all pairs or none. -/
def readClock? (cs : List Char) : Option ClockText :=
  clockText? (cs[2]? = some ':') 3 cs

/-- A number of a time of day; the last ones may be left out. -/
def ClockText.number (clock : ClockText) (index : Nat) : Nat := clock.numbers[index]?.getD 0

def ClockText.seconds (clock : ClockText) : Nat :=
  clock.number 0 * 3600 + clock.number 1 * 60 + clock.number 2

/-- An offset in microseconds, whatever its size, from its sign or letter up to the end of a
    text. Without whole seconds it is none. -/
def isoOffset? (cs : List Char) : Option (Option Int) :=
  if cs = [] then some none
  else if cs = ['Z'] then some (some 0)
  else do
    unless cs.head? = some '-' ∨ cs.head? = some '+' do failure
    let clock ← readClock? cs.tail
    unless clock.rest = [] do failure
    let size := if clock.seconds = 0 then 0 else clock.seconds * 1000000 + clock.microsecond.val
    return some (if cs.head? = some '-' then -size else size)

/-- A time of day and its offset. What stands between them is passed over. -/
def isoClock? (cs : List Char) : Option (ClockText × Option Int) := do
  let body := cs.takeWhile fun c => !"+-Z".toList.contains c
  let clock ← readClock? body
  let offset ← isoOffset? (cs.drop body.length)
  if offset.isNone ∧ clock.rest ≠ [] then failure
  return (clock, offset)

end Calendar

namespace Date

/-- A date with the first fault in the order year, month, day. -/
def check (year : Int) (month day : Nat) : Except DateFault Date :=
  match of? year.toNat month day with
  | some date => .ok date
  | none =>
      if year < 1 ∨ 9999 < year then .error (.yearOutOfRange year)
      else if month < 1 ∨ 12 < month then .error .monthOutOfRange
      else .error .dayOutOfRange

def ofText (text : String) : Except DateFault Date :=
  let size := text.utf8ByteSize
  match Calendar.isoDate? text.toList with
  | some (year, month, day) =>
      if size = 7 ∨ size = 8 ∨ size = 10 then check year month day
      else .error (.unreadable text)
  | none => .error (.unreadable text)

end Date

namespace Offset

def check (micros : Int) : Except DateFault Offset :=
  match of? micros with
  | some offset => .ok offset
  | none => .error (.offsetOutOfRange micros)

end Offset

namespace Timestamp

/-- The second of the day with the first fault in the order hour, minute, second. -/
def checkClock (clock : Calendar.ClockText) : Except DateFault (Fin 86400) :=
  match clock? (clock.number 0) (clock.number 1) (clock.number 2) with
  | some second => .ok second
  | none =>
      if 24 ≤ clock.number 0 then .error .hourOutOfRange
      else if 60 ≤ clock.number 1 then .error .minuteOutOfRange
      else .error .secondOutOfRange

/-- Read a point in time; a date alone is its midnight. -/
def ofText (text : String) : Except DateFault Timestamp := do
  let cs := text.toList
  let size := Calendar.dateLength cs
  let some (year, month, day) := Calendar.isoDate? (cs.take size) | throw (.unreadable text)
  if cs.length ≤ size then return .midnight (← Date.check year month day) none
  let some (clock, offset) := Calendar.isoClock? (cs.drop (size + 1))
    | throw (.unreadable text)
  let offset ← offset.mapM Offset.check
  let date ← Date.check year month day
  return ⟨date, ← checkClock clock, clock.microsecond, offset⟩

end Timestamp

end NextOffer
