import NextOffer.Calendar.Timestamp
import NextOffer.Json.Display

/-! # Times of records

A time counts seconds from the start of 1970 in universal time. It is written to whole
seconds, which the clock holds in 64 bits and its years in 32.
-/

namespace NextOffer.Log

inductive TimeFault where
  | numberRequired (kind : String)
  | notANumber
  | outsideClock
  | outsideCalendar
  | yearOutOfRange (year : Int)
  deriving DecidableEq, Repr

namespace TimeFault

def message : TimeFault → String
  | numberRequired kind => s!"'{kind}' object cannot be interpreted as an integer"
  | notANumber => "Invalid value NaN (not a number)"
  | outsideClock => "timestamp out of range for platform time_t"
  | outsideCalendar => "[Errno 75] Value too large for defined data type"
  | yearOutOfRange year => s!"year {year} is out of range"

end TimeFault

def checkedSecond (second : Int) : Except TimeFault Int :=
  if -(Nat.pow 2 63 : Int) ≤ second ∧ second < Nat.pow 2 63 then .ok second
  else .error .outsideClock

/-- The whole second at or before a time, rounded to microseconds first. Truth values
    count as one and zero. -/
def wholeSecond : Json.Value → Except TimeFault Int
  | .bool value => .ok (if value then 1 else 0)
  | .number (.int n) => checkedSecond n
  | .number (.real .nan) => .error .notANumber
  | .number (.real (.infinity _)) => .error .outsideClock
  | .number (.real (.finite negative quanta _)) =>
      let micros := roundDiv (Binary64.nearest (quanta % Binary64.unit * 1000000) 1) Binary64.unit
      checkedSecond
        (Binary64.signed negative (quanta / Binary64.unit * 1000000 + micros) / 1000000)
  | value => .error (.numberRequired value.kindName)

/-- A second without a date. A year beyond 32 bits is not counted; the clock counts years
    from 1900, and one that comes out beyond 32 bits afterwards wraps around. -/
def dateless (second : Int) : TimeFault :=
  let year := (Calendar.numbersOfDay (second / 86400)).1
  if year < -2147481748 ∨ 2147485547 < year then .outsideCalendar
  else .yearOutOfRange (Int.bmod year 4294967296)

def timeText (time : Json.Value) : Except TimeFault String := do
  let second ← wholeSecond time
  match (Timestamp.ofUnixSeconds? second (Timestamp.micros 0) (some Offset.universal)).bind
      Timestamp.universalText? with
  | some text => return text
  | none => throw (dateless second)

end NextOffer.Log
