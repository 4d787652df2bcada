import Mathlib.Order.Monotone.Basic
import NextOffer.Calendar.Date

/-! # Days are numbered without gaps

The number of a day counts the days of the calendar from the beginning of 1970: over the days of
a month, over the months of a year and over the years. So every number belongs to one day, and
the days of the years 1 to 9999 are those between the first and the last of them.
-/

namespace NextOffer

namespace Calendar

variable {spans : List Nat} {index span day rest year month : Nat}

/-! ## Consecutive spans -/

theorem total_append (front back : List Nat) :
    total (front ++ back) = total front + total back := by
  induction front with
  | nil => exact (Nat.zero_add _).symm
  | cons span front ih => exact (congrArg (span + ·) ih).trans (Nat.add_assoc _ _ _).symm

theorem total_take_succ (there : spans[index]? = some span) :
    total (spans.take (index + 1)) = total (spans.take index) + span := by
  rw [List.take_add_one, there, total_append]
  rfl

theorem total_take_le (spans : List Nat) (index : Nat) :
    total (spans.take index) ≤ total spans := by
  have whole := total_append (spans.take index) (spans.drop index)
  rw [List.take_append_drop] at whole
  omega

/-- A day falls into the span that was found, and there on the day that was found. -/
theorem locate_spec (inside : day < total spans) :
    ∃ span, spans[(locate spans day).1]? = some span ∧ (locate spans day).2 < span ∧
      total (spans.take (locate spans day).1) + (locate spans day).2 = day := by
  induction spans generalizing day with
  | nil => cases inside
  | cons first spans ih =>
      have whole : total (first :: spans) = first + total spans := rfl
      rw [locate]
      split
      case isTrue here => exact ⟨first, rfl, here, Nat.zero_add day⟩
      case isFalse later =>
          have inRest : day - first < total spans := by omega
          obtain ⟨span, there, within, sum⟩ := ih inRest
          refine ⟨span, there, within, ?_⟩
          show first + total (spans.take (locate spans (day - first)).1) +
            (locate spans (day - first)).2 = day
          omega

theorem locate_take (there : spans[index]? = some span) (within : rest < span) :
    locate spans (total (spans.take index) + rest) = (index, rest) := by
  induction spans generalizing index with
  | nil => cases there
  | cons first spans ih =>
      cases index with
      | zero =>
          obtain rfl : first = span := Option.some.inj there
          show locate (first :: spans) (0 + rest) = (0, rest)
          rw [locate, Nat.zero_add, if_pos within]
      | succ index =>
          show locate (first :: spans) (first + total (spans.take index) + rest) = (index + 1, rest)
          rw [locate, if_neg (by omega), Nat.add_assoc, Nat.add_sub_cancel_left, ih there]

/-! ## Days of a year -/

theorem isLeap_mod (year : Nat) : isLeap (year % 400) = isLeap year := by
  have four : year % 400 % 4 = year % 4 := by omega
  have hundred : year % 400 % 100 = year % 100 := by omega
  rw [isLeap, four, hundred, Nat.mod_mod, isLeap]

theorem yearLength_mod (year : Nat) : yearLength (year % 400) = yearLength year := by
  rw [yearLength, isLeap_mod, yearLength]

theorem monthLengths_mod (year : Nat) : monthLengths (year % 400) = monthLengths year := by
  rw [monthLengths, isLeap_mod, monthLengths]

theorem total_monthLengths (year : Nat) : total (monthLengths year) = yearLength year := by
  unfold monthLengths yearLength
  split <;> rfl

/-- A day of some month of a year. -/
structure InYear (year month day : Nat) : Prop where
  monthWithin : 1 ≤ month ∧ month ≤ 12
  dayWithin : 1 ≤ day ∧ day ≤ monthLength year month

theorem IsDate.inYear (valid : IsDate year month day) : InYear year month day := by
  obtain ⟨_, _, first, last, start, stop⟩ := valid
  exact ⟨⟨first, last⟩, ⟨start, stop⟩⟩

/-- The day of the year, counted from 0. -/
def yearDay (year month day : Nat) : Nat := total ((monthLengths year).take (month - 1)) + (day - 1)

theorem yearDay_first (year : Nat) : yearDay year 1 1 = 0 := by
  rw [yearDay, Nat.sub_self, List.take_zero]
  rfl

theorem getElem?_monthLengths (year : Nat) (first : 1 ≤ month) (last : month ≤ 12) :
    (monthLengths year)[month - 1]? = some (monthLength year month) := by
  have range : month - 1 < (monthLengths year).length := by
    show month - 1 < 12
    omega
  rw [monthLength, if_neg (by omega), List.getElem?_eq_getElem range, Option.getD_some]

theorem monthLength_pos (year : Nat) (first : 1 ≤ month) (last : month ≤ 12) :
    1 ≤ monthLength year month := by
  have each : ∀ length ∈ monthLengths year, 1 ≤ length := by
    unfold monthLengths
    split <;> decide
  exact each _ (List.mem_of_getElem? (getElem?_monthLengths year first last))

theorem InYear.length (valid : InYear year month day) :
    (monthLengths year)[month - 1]? = some (monthLength year month) :=
  getElem?_monthLengths year valid.monthWithin.1 valid.monthWithin.2

theorem InYear.yearDay_lt (valid : InYear year month day) :
    yearDay year month day < yearLength year := by
  have next := total_take_succ valid.length
  have bound := total_take_le (monthLengths year) (month - 1 + 1)
  have last := valid.dayWithin
  rw [total_monthLengths] at bound
  unfold yearDay
  omega

theorem InYear.locate_yearDay (valid : InYear year month day) :
    locate (monthLengths year) (yearDay year month day) = (month - 1, day - 1) := by
  have last := valid.dayWithin
  exact locate_take valid.length (by omega)

/-! ## Years -/

/-- The days before a year, counted from the year 0. -/
def daysBefore (year : Nat) : Nat := year / 400 * cycleDays + total (cycleLengths.take (year % 400))

theorem cycleLength (year : Nat) : cycleLengths[year % 400]? = some (yearLength year) := by
  have range : year % 400 < 400 := Nat.mod_lt _ (by decide)
  rw [cycleLengths, List.getElem?_map, List.getElem?_range range, Option.map_some, yearLength_mod]

theorem total_cycleLengths : total cycleLengths = cycleDays := by decide +kernel

theorem locate_cycle_lt (inside : day < total cycleLengths) :
    (locate cycleLengths day).1 < 400 := by
  obtain ⟨span, there, -⟩ := locate_spec inside
  have range := (List.getElem?_eq_some_iff.mp there).1
  simpa [cycleLengths] using range

theorem daysBefore_succ (year : Nat) :
    daysBefore (year + 1) = daysBefore year + yearLength year := by
  have next := total_take_succ (cycleLength year)
  unfold daysBefore
  by_cases ends : year % 400 = 399
  · have whole : total (cycleLengths.take (year % 400 + 1)) = cycleDays := by
      rw [ends, List.take_of_length_le (by simp [cycleLengths]), total_cycleLengths]
    have quotient : (year + 1) / 400 = year / 400 + 1 := by omega
    have remainder : (year + 1) % 400 = 0 := by omega
    rw [quotient, remainder, Nat.add_assoc, ← next, whole, Nat.add_mul, Nat.one_mul, List.take_zero,
      total, List.foldr_nil, Nat.add_zero]
  · have quotient : (year + 1) / 400 = year / 400 := by omega
    have remainder : (year + 1) % 400 = year % 400 + 1 := by omega
    rw [quotient, remainder, next, Nat.add_assoc]

theorem daysBefore_strictMono : StrictMono daysBefore := by
  apply strictMono_nat_of_lt_succ
  intro year
  rw [daysBefore_succ]
  have positive : 0 < yearLength year := by
    unfold yearLength
    split <;> decide
  omega

/-! ## Numbers of days -/

theorem dayNumber_eq (year month day : Nat) :
    dayNumber year month day = (daysBefore year + yearDay year month day : Nat) - epochDay := by
  rw [dayNumber, daysBefore, yearDay, Nat.add_assoc _ _ (day - 1)]

theorem dayNumber_first (year : Nat) : dayNumber year 1 1 = daysBefore year - epochDay := by
  rw [dayNumber_eq, yearDay_first, Nat.add_zero]

/-- A numbering of days that has 0 for the first of 1970 and goes on from each day to the day
    after it. -/
structure Counts (number : Nat → Nat → Nat → Int) : Prop where
  epoch : number 1970 1 1 = 0
  nextDay : ∀ year month day, 1 ≤ month → month ≤ 12 → 1 ≤ day → day < monthLength year month →
    number year month (day + 1) = number year month day + 1
  nextMonth : ∀ year month, 1 ≤ month → month < 12 →
    number year (month + 1) 1 = number year month (monthLength year month) + 1
  nextYear : ∀ year, number (year + 1) 1 1 = number year 12 31 + 1

theorem counts_dayNumber : Counts dayNumber where
  epoch := by decide +kernel
  nextDay year month day _ _ first _ := by
    simp only [dayNumber_eq, yearDay]
    omega
  nextMonth year month first last := by
    have length := monthLength_pos year first last.le
    have next := total_take_succ (getElem?_monthLengths year first last.le)
    rw [Nat.sub_add_cancel first] at next
    simp only [dayNumber_eq, yearDay, Nat.add_sub_cancel, next]
    omega
  nextYear year := by
    have december : monthLength year 12 = 31 := rfl
    have whole : (monthLengths year).take (12 - 1 + 1) = monthLengths year := rfl
    have next := total_take_succ (getElem?_monthLengths year (by decide) (Nat.le_refl 12))
    rw [whole, total_monthLengths, december] at next
    rw [dayNumber_first, dayNumber_eq, daysBefore_succ, next, yearDay]
    omega

theorem daysBefore_le_iff (valid : InYear year month day) (other : Nat) :
    daysBefore other ≤ daysBefore year + yearDay year month day ↔ other ≤ year := by
  constructor
  · intro begun
    by_contra later
    have next : daysBefore (year + 1) ≤ daysBefore other :=
      daysBefore_strictMono.monotone (Nat.lt_of_not_le later)
    have inside := valid.yearDay_lt
    rw [daysBefore_succ] at next
    omega
  · intro before
    have := daysBefore_strictMono.monotone before
    omega

theorem InYear.unique {year' month' day' : Nat} (valid : InYear year month day)
    (valid' : InYear year' month' day')
    (same : daysBefore year + yearDay year month day =
      daysBefore year' + yearDay year' month' day') :
    year = year' ∧ month = month' ∧ day = day' := by
  have up : year ≤ year' := by
    rw [← daysBefore_le_iff valid', ← same]
    exact Nat.le_add_right _ _
  have down : year' ≤ year := by
    rw [← daysBefore_le_iff valid, same]
    exact Nat.le_add_right _ _
  obtain rfl := Nat.le_antisymm up down
  have found := valid.locate_yearDay
  rw [Nat.add_left_cancel same, valid'.locate_yearDay, Prod.mk.injEq] at found
  have := valid.monthWithin
  have := valid'.monthWithin
  have := valid.dayWithin
  have := valid'.dayWithin
  omega

theorem exists_month (inside : rest < yearLength year) :
    ∃ month day, InYear year month day ∧ yearDay year month day = rest := by
  rw [← total_monthLengths] at inside
  obtain ⟨span, there, within, sum⟩ := locate_spec inside
  generalize locate (monthLengths year) rest = found at there within sum
  have range : found.1 < 12 := (List.getElem?_eq_some_iff.mp there).1
  have length : monthLength year (found.1 + 1) = span :=
    Option.some.inj ((getElem?_monthLengths year (by omega) range).symm.trans there)
  exact ⟨found.1 + 1, found.2 + 1, ⟨by omega, by omega⟩, sum⟩

theorem exists_year (days : Nat) :
    ∃ year rest, rest < yearLength year ∧ daysBefore year + rest = days ∧
      year / 400 = days / cycleDays ∧
      locate cycleLengths (days % cycleDays) = (year % 400, rest) := by
  have inCycle : days % cycleDays < total cycleLengths := by
    rw [total_cycleLengths]
    exact Nat.mod_lt _ (by decide)
  have range := locate_cycle_lt inCycle
  obtain ⟨span, there, within, sum⟩ := locate_spec inCycle
  generalize locate cycleLengths (days % cycleDays) = found at range there within sum
  have quotient : (days / cycleDays * 400 + found.1) / 400 = days / cycleDays := by omega
  have remainder : (days / cycleDays * 400 + found.1) % 400 = found.1 := by omega
  have length : yearLength (days / cycleDays * 400 + found.1) = span := by
    have same := cycleLength (days / cycleDays * 400 + found.1)
    rw [remainder] at same
    exact Option.some.inj (same.symm.trans there)
  refine ⟨days / cycleDays * 400 + found.1, found.2, length ▸ within, ?_, quotient, ?_⟩
  · rw [daysBefore, quotient, remainder, Nat.add_assoc, sum]
    exact Nat.div_add_mod' days cycleDays
  · rw [remainder]

theorem numbersOfDay_of_locate {days : Nat} {found month : Nat × Nat}
    (inCycle : locate cycleLengths (days % cycleDays) = found)
    (inYear : locate (monthLengths found.1) found.2 = month) :
    numbersOfDay (days - epochDay) =
      (((days / cycleDays * 400 + found.1 : Nat) : Int), month.1 + 1, month.2 + 1) := by
  have count : (days : Int) - epochDay + epochDay = days := Int.sub_add_cancel _ _
  have remainder : ((days : Int) % cycleDays).toNat = days % cycleDays := by
    rw [← Int.natCast_emod, Int.toNat_natCast]
  subst inYear
  subst inCycle
  rw [← remainder, numbersOfDay, count, Int.natCast_add, Int.natCast_mul, Int.natCast_ediv]
  rfl

/-- Every number that is not before the year 0 belongs to a day, and is turned into it. -/
theorem exists_day (days : Nat) :
    ∃ year month day : Nat, InYear year month day ∧
      daysBefore year + yearDay year month day = days ∧
      numbersOfDay (days - epochDay) = ((year : Int), month, day) := by
  obtain ⟨year, rest, inside, sum, quotient, found⟩ := exists_year days
  obtain ⟨month, day, valid, same⟩ := exists_month inside
  subst same
  refine ⟨year, month, day, valid, sum, ?_⟩
  have inYear := valid.locate_yearDay
  rw [← monthLengths_mod] at inYear
  rw [numbersOfDay_of_locate found inYear, ← quotient, Nat.div_add_mod',
    Nat.sub_add_cancel valid.monthWithin.1, Nat.sub_add_cancel valid.dayWithin.1]

theorem numbersOfDay_dayNumber (valid : InYear year month day) :
    numbersOfDay (dayNumber year month day) = ((year : Int), month, day) := by
  obtain ⟨year', month', day', valid', same, found⟩ :=
    exists_day (daysBefore year + yearDay year month day)
  obtain ⟨rfl, rfl, rfl⟩ := valid'.unique valid same
  rw [dayNumber_eq, found]

end Calendar

namespace Date

open Calendar

theorem ofDayNumber?_of_neg {number : Int} (early : number + epochDay < 0) :
    ofDayNumber? number = none := by
  have positive : (0 : Int) < cycleDays := by decide
  have inCycle : ((number + epochDay) % cycleDays).toNat < total cycleLengths := by
    have := Int.emod_lt_of_pos (number + epochDay) positive
    rw [total_cycleLengths]
    omega
  have range := locate_cycle_lt inCycle
  have past := Int.ediv_neg_of_neg_of_pos early positive
  have year : (numbersOfDay number).1 = (number + epochDay) / cycleDays * 400 +
      (locate cycleLengths ((number + epochDay) % cycleDays).toNat).1 := rfl
  have turned : ofDayNumber? number = of? (numbersOfDay number).1.toNat
      (numbersOfDay number).2.1 (numbersOfDay number).2.2 := rfl
  rw [turned, of?, dif_neg]
  rintro ⟨first, -⟩
  omega

theorem exists_ofDayNumber? {number : Int} (late : 0 ≤ number + epochDay) :
    ∃ year month day, InYear year month day ∧ Calendar.dayNumber year month day = number ∧
      ofDayNumber? number = of? year month day := by
  obtain ⟨days, count⟩ := Int.eq_ofNat_of_zero_le late
  obtain rfl : number = days - epochDay := by omega
  obtain ⟨year, month, day, valid, sum, found⟩ := exists_day days
  refine ⟨year, month, day, valid, by rw [dayNumber_eq, sum], ?_⟩
  rw [ofDayNumber?, found]
  rfl

theorem of?_eq_some_iff {year month day : Nat} {date : Date} :
    of? year month day = some date ↔
      year = date.year ∧ month = date.month ∧ day = date.day := by
  unfold of?
  constructor
  · intro found
    split at found
    case isTrue valid =>
        cases found
        exact ⟨rfl, rfl, rfl⟩
    case isFalse => cases found
  · rintro ⟨rfl, rfl, rfl⟩
    rw [dif_pos date.valid]

theorem ofDayNumber?_eq_some_iff {number : Int} {date : Date} :
    ofDayNumber? number = some date ↔ date.dayNumber = number := by
  constructor
  · intro found
    by_cases early : number + epochDay < 0
    · rw [ofDayNumber?_of_neg early] at found
      cases found
    · obtain ⟨year, month, day, -, same, turned⟩ := exists_ofDayNumber? (Int.not_lt.mp early)
      rw [turned, of?_eq_some_iff] at found
      obtain ⟨rfl, rfl, rfl⟩ := found
      exact same
  · rintro rfl
    rw [ofDayNumber?, dayNumber, numbersOfDay_dayNumber date.valid.inYear]
    exact of?_eq_some_iff.mpr ⟨rfl, rfl, rfl⟩

/-- The days of the years 1 to 9999 are those from the first of them to the last. -/
theorem isSome_ofDayNumber?_iff {number : Int} :
    (ofDayNumber? number).isSome = true ↔
      Calendar.dayNumber 1 1 1 ≤ number ∧ number ≤ Calendar.dayNumber 9999 12 31 := by
  have next := counts_dayNumber.nextYear 9999
  rw [dayNumber_first] at next
  rw [dayNumber_first]
  constructor
  · intro found
    obtain ⟨date, found⟩ := Option.isSome_iff_exists.mp found
    obtain ⟨first, last, -⟩ := date.valid
    have begun := (daysBefore_le_iff date.valid.inYear 1).mpr first
    have ended := (daysBefore_le_iff date.valid.inYear (9999 + 1)).not.mpr (by omega)
    rw [← ofDayNumber?_eq_some_iff.mp found, dayNumber, dayNumber_eq date.year]
    omega
  · rintro ⟨first, last⟩
    have late : 0 ≤ number + epochDay := by omega
    obtain ⟨year, month, day, valid, rfl, turned⟩ := exists_ofDayNumber? late
    rw [dayNumber_eq year] at first last
    have begun := (daysBefore_le_iff valid 1).mp (by omega)
    have ended := (daysBefore_le_iff valid (9999 + 1)).not.mp (by omega)
    have date : IsDate year month day := ⟨begun, by omega, valid.monthWithin.1,
      valid.monthWithin.2, valid.dayWithin⟩
    rw [turned, of?, dif_pos date]
    rfl

end Date

end NextOffer
