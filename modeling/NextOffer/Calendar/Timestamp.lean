import NextOffer.Calendar.Date

/-! # Points in time

A date and a time of day with microseconds, with or without an offset from universal
time. Without an offset a time counts as universal.
-/

namespace NextOffer

/-- An offset from universal time in microseconds, less than a day. -/
abbrev Offset := { micros : Int // -86400000000 < micros ∧ micros < 86400000000 }

/-- A date and time of day, with or without an offset from universal time. -/
structure Timestamp where
  date : Date
  second : Fin 86400
  microsecond : Fin 1000000
  offset : Option Offset
  deriving DecidableEq

namespace Offset

def universal : Offset := ⟨0, by decide⟩

/-- The offset of so many microseconds, if it is less than a day. -/
def of? (micros : Int) : Option Offset :=
  if h : -86400000000 < micros ∧ micros < 86400000000 then some ⟨micros, h⟩ else none

def seconds (offset : Offset) : Int := offset.val / 1000000

end Offset

namespace Timestamp

/-- The microseconds that a count has beyond whole seconds. -/
def micros (count : Nat) : Fin 1000000 := ⟨count % 1000000, Nat.mod_lt _ (by decide)⟩

def firstSecond : Fin 86400 := ⟨0, by decide⟩

def midnight (date : Date) (offset : Option Offset) : Timestamp :=
  ⟨date, firstSecond, micros 0, offset⟩

/-- The second of the day at some hour, minute and second, if the clock shows it. -/
def clock? (hour minute second : Nat) : Option (Fin 86400) :=
  if h : hour < 24 ∧ minute < 60 ∧ second < 60 then
    some ⟨hour * 3600 + minute * 60 + second, by omega⟩
  else none

/-- Microseconds from the start of 1970 in universal time. -/
def unixMicros (t : Timestamp) : Int :=
  (t.date.dayNumber * 86400 + t.second.val) * 1000000 + t.microsecond.val -
    (t.offset.map (·.val)).getD 0

/-- The time so many seconds after the start of 1970, in universal time. -/
def ofUnixSeconds? (seconds : Int) (microsecond : Fin 1000000) (offset : Option Offset) :
    Option Timestamp :=
  (Date.ofDayNumber? (seconds / 86400)).map fun date =>
    { date
      second := ⟨(seconds % 86400).toNat, by omega⟩
      microsecond
      offset }

/-- The same point in universal time, if its date is in range. -/
def toUniversal? (t : Timestamp) : Option Timestamp :=
  if t.offset = some Offset.universal then some t
  else
    ofUnixSeconds? (t.unixMicros / 1000000) (micros (t.unixMicros % 1000000).toNat)
      (some Offset.universal)

/-- The time of day as `18:28:08`. -/
def clockChars (t : Timestamp) : List Char :=
  Date.padded 2 (t.second / 3600) ++ ':' :: Date.padded 2 (t.second / 60 % 60) ++
    ':' :: Date.padded 2 (t.second % 60)

/-- The microseconds behind a point, if there are any. -/
def fractionChars (t : Timestamp) : List Char :=
  if t.microsecond.val = 0 then [] else '.' :: Date.padded 6 t.microsecond

/-- A time of day with a sign as `+05:30`. -/
def minutesChars (negative : Bool) (seconds : Nat) : List Char :=
  (if negative then '-' else '+') ::
    Date.padded 2 (seconds / 3600) ++ ':' :: Date.padded 2 (seconds / 60 % 60)

/-- An offset as `+05:30`, with its seconds and its microseconds if there are any. -/
def offsetChars (offset : Offset) : List Char :=
  let size := offset.val.natAbs
  let fraction := size % 1000000
  minutesChars (decide (offset.val < 0)) (size / 1000000) ++
    (if size % 60000000 = 0 then [] else ':' :: Date.padded 2 (size / 1000000 % 60)) ++
    if fraction = 0 then [] else '.' :: Date.padded 6 fraction

/-- Date, time and fraction. -/
def localChars (t : Timestamp) : List Char :=
  t.date.chars ++ 'T' :: t.clockChars ++ t.fractionChars

/-- The full form with every part of the offset. -/
def text (t : Timestamp) : String :=
  String.ofList (t.localChars ++
    match t.offset with
    | none => []
    | some offset => offsetChars offset)

/-- The form in JSON: universal time is marked `Z`, other offsets have whole minutes. -/
def jsonText (t : Timestamp) : String :=
  String.ofList (t.localChars ++
    match t.offset with
    | none => []
    | some offset =>
        if offset.seconds = 0 then ['Z']
        else minutesChars (decide (offset.seconds < 0)) offset.seconds.natAbs)

/-- The point in universal time to whole seconds, with the year unpadded. None when its
    date is out of range. -/
def universalText? (t : Timestamp) : Option String :=
  t.toUniversal?.map fun u =>
    String.ofList (Nat.toDigits 10 u.date.year ++ '-' :: Date.padded 2 u.date.month ++
      '-' :: Date.padded 2 u.date.day ++ 'T' :: u.clockChars ++ ['Z'])

end Timestamp

end NextOffer
