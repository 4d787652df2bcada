/-! # Calendar dates

Dates of the Gregorian calendar in the years 1 to 9999, and their numbering in days
from 1970-01-01. Both directions walk the same lists of year and month lengths.
-/

namespace NextOffer

namespace Calendar

/-- Years with a 29th of February. -/
def isLeap (year : Nat) : Bool :=
  year % 4 == 0 && (year % 100 != 0 || year % 400 == 0)

def yearLength (year : Nat) : Nat := if isLeap year then 366 else 365

/-- The number of days in each month of a year. -/
def monthLengths (year : Nat) : List Nat :=
  [31, if isLeap year then 29 else 28, 31, 30, 31, 30, 31, 31, 30, 31, 30, 31]

/-- The number of days in a month counted from 1; other months have none. -/
def monthLength (year month : Nat) : Nat :=
  if month = 0 then 0 else (monthLengths year)[month - 1]?.getD 0

/-- The lengths of the years of one cycle of 400 years. -/
def cycleLengths : List Nat := (List.range 400).map yearLength

def cycleDays : Nat := 146097

/-- The number of the cycle day 0 of year 0, counted back from 1970-01-01. -/
def epochDay : Nat := 719528

def total (spans : List Nat) : Nat := spans.foldr (· + ·) 0

/-- The span of a list of consecutive spans into which a day falls, and its day there. -/
def locate : List Nat → Nat → Nat × Nat
  | [], day => (0, day)
  | span :: rest, day =>
      if day < span then (0, day)
      else
        let found := locate rest (day - span)
        (found.1 + 1, found.2)

/-- Days from 1970-01-01 to a year, month and day. -/
def dayNumber (year month day : Nat) : Int :=
  (year / 400 * cycleDays + total (cycleLengths.take (year % 400))
    + total ((monthLengths year).take (month - 1)) + (day - 1) : Nat) - epochDay

/-- The year, month and day so many days from 1970-01-01. -/
def numbersOfDay (number : Int) : Int × Nat × Nat :=
  let days := number + epochDay
  let year := locate cycleLengths (days % cycleDays).toNat
  let month := locate (monthLengths year.1) year.2
  (days / cycleDays * 400 + year.1, month.1 + 1, month.2 + 1)

/-- The day of the week, from 0 for Monday on. -/
def weekday (number : Int) : Int := (number + 3) % 7

/-- Year, month and day that the calendar has. -/
def IsDate (year month day : Nat) : Prop :=
  1 ≤ year ∧ year ≤ 9999 ∧ 1 ≤ month ∧ month ≤ 12 ∧ 1 ≤ day ∧ day ≤ monthLength year month

instance : Decidable (IsDate year month day) :=
  inferInstanceAs (Decidable (_ ∧ _ ∧ _ ∧ _ ∧ _ ∧ _))

end Calendar

structure Date where
  year : Nat
  month : Nat
  day : Nat
  valid : Calendar.IsDate year month day := by decide
  deriving DecidableEq

namespace Date

/-- The date with these numbers, if the calendar has it. -/
def of? (year month day : Nat) : Option Date :=
  if h : Calendar.IsDate year month day then some ⟨year, month, day, h⟩ else none

/-- Days from 1970-01-01. -/
def dayNumber (date : Date) : Int := Calendar.dayNumber date.year date.month date.day

/-- The date so many days from 1970-01-01, within the years 1 to 9999. -/
def ofDayNumber? (number : Int) : Option Date :=
  let (year, month, day) := Calendar.numbersOfDay number
  of? year.toNat month day

def padded (width n : Nat) : List Char :=
  let digits := Nat.toDigits 10 n
  List.replicate (width - digits.length) '0' ++ digits

/-- The date as `2026-02-05`. -/
def chars (date : Date) : List Char :=
  padded 4 date.year ++ '-' :: padded 2 date.month ++ '-' :: padded 2 date.day

/-- The date as `2026-02-05`. -/
def text (date : Date) : String := String.ofList date.chars

end Date

end NextOffer
