import NextOffer.Proofs.Calendar
import NextOffer.Proofs.Calendar.Days
import NextOffer.Proofs.Digits

/-! # The text in universal time

A point in time has a text in universal time exactly when its instant falls into the years 1 to
9999 there. The text shows a date of the calendar and a time of day, and these are as far from
the beginning of 1970 as the instant, rounded down to whole seconds. So points have one text
exactly when they lie in one second.
-/

namespace NextOffer

open Calendar

/-- The numbers of a date and of a time of day. -/
structure WallClock where
  year : Nat
  month : Nat
  day : Nat
  hour : Nat
  minute : Nat
  second : Nat

namespace WallClock

/-- The calendar has the date, and the clock shows the time. -/
structure IsValid (reading : WallClock) : Prop where
  date : IsDate reading.year reading.month reading.day
  clock : reading.hour < 24 ∧ reading.minute < 60 ∧ reading.second < 60

/-- Seconds from the beginning of 1970. -/
def unixSeconds (reading : WallClock) : Int :=
  dayNumber reading.year reading.month reading.day * 86400 +
    (reading.hour * 3600 + reading.minute * 60 + reading.second : Nat)

/-- The reading as `2026-02-05T18:28:08Z`, with the year unpadded. -/
def text (reading : WallClock) : String :=
  String.ofList (Nat.toDigits 10 reading.year ++ '-' :: (Date.padded 2 reading.month ++
    '-' :: (Date.padded 2 reading.day ++ 'T' :: (Date.padded 2 reading.hour ++
    ':' :: (Date.padded 2 reading.minute ++ ':' :: (Date.padded 2 reading.second ++ ['Z']))))))

/-- The first second of the calendar. -/
def first : WallClock := ⟨1, 1, 1, 0, 0, 0⟩

/-- The last second of the calendar. -/
def last : WallClock := ⟨9999, 12, 31, 23, 59, 59⟩

variable {reading other : WallClock}

theorem padded_append_inj {n m : Nat} {rest rest' : List Char} (small : n < 100) (small' : m < 100)
    (same : Date.padded 2 n ++ rest = Date.padded 2 m ++ rest') : n = m ∧ rest = rest' := by
  have read := digits?_padded (show n < 10 ^ 2 from small) (by decide) rest
  rw [same, digits?_padded (show m < 10 ^ 2 from small') (by decide), Option.some.injEq,
    Prod.mk.injEq] at read
  exact ⟨read.1.symm, read.2.symm⟩

theorem toDigits_append_inj {n m : Nat} {rest rest' : List Char}
    (same : Nat.toDigits 10 n ++ '-' :: rest = Nat.toDigits 10 m ++ '-' :: rest') :
    n = m ∧ rest = rest' := by
  have digits (n : Nat) (rest : List Char) :
      leadingDigits (Nat.toDigits 10 n ++ '-' :: rest) = Nat.toDigits 10 n :=
    leadingDigits_append isDigit_of_mem_toDigits (by simp)
  have years : Nat.toDigits 10 n = Nat.toDigits 10 m := by
    rw [← digits n rest, same, digits]
  rw [years] at same
  exact ⟨toDigits_injective years, (List.cons.inj (List.append_cancel_left same)).2⟩

theorem text_inj (valid : reading.IsValid) (valid' : other.IsValid)
    (same : reading.text = other.text) : reading = other := by
  obtain ⟨_, _, _, months, _, days⟩ := valid.date
  obtain ⟨_, _, _, months', _, days'⟩ := valid'.date
  have longest := monthLength_le reading.year reading.month
  have longest' := monthLength_le other.year other.month
  obtain ⟨hours, minutes, seconds⟩ := valid.clock
  obtain ⟨hours', minutes', seconds'⟩ := valid'.clock
  rw [text, text, String.ofList_inj] at same
  obtain ⟨year, same⟩ := toDigits_append_inj same
  obtain ⟨month, same⟩ := padded_append_inj (by omega) (by omega) same
  obtain ⟨day, same⟩ := padded_append_inj (by omega) (by omega) (List.cons.inj same).2
  obtain ⟨hour, same⟩ := padded_append_inj (by omega) (by omega) (List.cons.inj same).2
  obtain ⟨minute, same⟩ := padded_append_inj (by omega) (by omega) (List.cons.inj same).2
  obtain ⟨second, -⟩ := padded_append_inj (by omega) (by omega) (List.cons.inj same).2
  cases reading
  cases other
  simp_all

theorem unixSeconds_inj (valid : reading.IsValid) (valid' : other.IsValid)
    (same : reading.unixSeconds = other.unixSeconds) : reading = other := by
  obtain ⟨hours, minutes, seconds⟩ := valid.clock
  obtain ⟨hours', minutes', seconds'⟩ := valid'.clock
  unfold unixSeconds at same
  have days : dayNumber reading.year reading.month reading.day =
      dayNumber other.year other.month other.day := by omega
  have dates := numbersOfDay_dayNumber valid.date.inYear
  rw [days, numbersOfDay_dayNumber valid'.date.inYear, Prod.mk.injEq,
    Prod.mk.injEq] at dates
  obtain ⟨year, month, day⟩ := dates
  cases reading
  cases other
  simp only [mk.injEq]
  simp only at *
  omega

end WallClock

namespace Timestamp

variable {t u : Timestamp}

/-- The seconds from the beginning of 1970 to a point, rounded down. -/
def unixSeconds (t : Timestamp) : Int := t.unixMicros / 1000000

/-- Date and time of day, whatever the offset. -/
def wallClock (t : Timestamp) : WallClock :=
  ⟨t.date.year, t.date.month, t.date.day, t.second / 3600, t.second / 60 % 60, t.second % 60⟩

theorem isValid_wallClock (t : Timestamp) : t.wallClock.IsValid := by
  have bound := t.second.isLt
  refine ⟨t.date.valid, ?_⟩
  simp only [wallClock]
  omega

theorem unixSeconds_wallClock (t : Timestamp) :
    t.wallClock.unixSeconds = t.date.dayNumber * 86400 + t.second.val := by
  have whole : t.second.val / 3600 * 3600 + t.second.val / 60 % 60 * 60 + t.second.val % 60 =
      t.second.val := by omega
  rw [WallClock.unixSeconds, Date.dayNumber]
  simp only [wallClock, whole]

theorem universalText?_eq (t : Timestamp) :
    t.universalText? = t.toUniversal?.map fun u => u.wallClock.text := by
  simp [universalText?, clockChars, WallClock.text, wallClock]

theorem unixSeconds_of_universal (here : t.offset = some Offset.universal) :
    t.unixSeconds = t.date.dayNumber * 86400 + t.second.val := by
  have fraction := t.microsecond.isLt
  simp only [unixSeconds, unixMicros, here, Option.map_some, Option.getD_some, Offset.universal]
  omega

theorem unixSeconds_toUniversal? (found : t.toUniversal? = some u) :
    u.wallClock.unixSeconds = t.unixSeconds := by
  rw [unixSeconds_wallClock]
  unfold toUniversal? at found
  split at found
  case isTrue here =>
      cases found
      rw [unixSeconds_of_universal here]
  case isFalse =>
      obtain ⟨date, same, rfl⟩ := Option.map_eq_some_iff.mp found
      rw [Date.ofDayNumber?_eq_some_iff] at same
      simp only [same, unixSeconds]
      omega

theorem isSome_toUniversal?_iff (t : Timestamp) :
    t.toUniversal?.isSome = true ↔
      WallClock.first.unixSeconds ≤ t.unixSeconds ∧ t.unixSeconds ≤ WallClock.last.unixSeconds := by
  have range (number : Int) := @Date.isSome_ofDayNumber?_iff number
  simp only [WallClock.unixSeconds, WallClock.first, WallClock.last]
  unfold toUniversal?
  split
  case isTrue here =>
      have known := Date.ofDayNumber?_eq_some_iff.mpr (Eq.refl t.date.dayNumber)
      have within := (range t.date.dayNumber).mp (by rw [known]; rfl)
      have bound := t.second.isLt
      rw [unixSeconds_of_universal here]
      constructor
      · intro _
        omega
      · intro _
        rfl
  case isFalse =>
      rw [ofUnixSeconds?, Option.isSome_map, range, unixSeconds]
      omega

/-- What the text of a point in universal time tells about the point. -/
structure Denotes (t : Timestamp) : Prop where
  /-- There is a text when the instant falls into the years 1 to 9999 in universal time. -/
  returns : t.universalText?.isSome = true ↔
    WallClock.first.unixSeconds ≤ t.unixSeconds ∧ t.unixSeconds ≤ WallClock.last.unixSeconds
  /-- It shows one date of the calendar with a time of day, in the second of the instant. -/
  shows : ∀ text, t.universalText? = some text →
    ∃ reading : WallClock, reading.IsValid ∧ reading.text = text ∧
      reading.unixSeconds = t.unixSeconds ∧
      ∀ other : WallClock, other.IsValid → other.text = text → other = reading
  /-- Other points have the same text exactly when they lie in the same second. -/
  alike : t.universalText?.isSome = true → ∀ other : Timestamp,
    other.universalText? = t.universalText? ↔ other.unixSeconds = t.unixSeconds

theorem isSome_universalText?_iff (t : Timestamp) :
    t.universalText?.isSome = true ↔
      WallClock.first.unixSeconds ≤ t.unixSeconds ∧ t.unixSeconds ≤ WallClock.last.unixSeconds := by
  rw [universalText?_eq, Option.isSome_map, isSome_toUniversal?_iff]

theorem exists_wallClock {text : String} (written : t.universalText? = some text) :
    ∃ reading : WallClock, reading.IsValid ∧ reading.text = text ∧
      reading.unixSeconds = t.unixSeconds := by
  rw [universalText?_eq] at written
  obtain ⟨u, found, same⟩ := Option.map_eq_some_iff.mp written
  exact ⟨u.wallClock, u.isValid_wallClock, same, unixSeconds_toUniversal? found⟩

/-- Points that both have a text have one text exactly when they lie in one second. -/
theorem universalText_inj {other : Timestamp} {text text' : String}
    (written : t.universalText? = some text) (written' : other.universalText? = some text') :
    text' = text ↔ other.unixSeconds = t.unixSeconds := by
  obtain ⟨reading, valid, shown, second⟩ := exists_wallClock written
  obtain ⟨reading', valid', shown', second'⟩ := exists_wallClock written'
  rw [← second, ← second', ← shown, ← shown']
  constructor
  · intro same
    rw [WallClock.text_inj valid' valid same]
  · intro same
    rw [WallClock.unixSeconds_inj valid' valid same]

/-- Day numbers count the days of the calendar from the beginning of 1970, and the text of every
    point in universal time denotes the second in which the point lies. -/
theorem universalText_denotes : Counts dayNumber ∧ ∀ t : Timestamp, t.Denotes := by
  refine ⟨counts_dayNumber, fun t => ⟨isSome_universalText?_iff t, ?_, ?_⟩⟩
  · intro text written
    obtain ⟨reading, valid, shown, second⟩ := exists_wallClock written
    refine ⟨reading, valid, shown, second, ?_⟩
    intro other valid' shown'
    exact WallClock.text_inj valid' valid (shown'.trans shown.symm)
  · intro returned other
    obtain ⟨text, written⟩ := Option.isSome_iff_exists.mp returned
    cases written' : other.universalText? with
    | some text' => rw [written, Option.some.injEq, universalText_inj written written']
    | none =>
        have outside := (isSome_universalText?_iff other).not.mp (by simp [written'])
        have inside := (isSome_universalText?_iff t).mp returned
        rw [written]
        constructor
        · intro same
          cases same
        · intro same
          rw [← same] at inside
          exact absurd inside outside

theorem isDate_leapDay : IsDate 2024 2 29 := by decide

theorem isDate_march : IsDate 2024 3 1 := by decide

theorem isDate_oldest : IsDate 1 1 1 := by decide

/-- The last half hour of a leap day, an hour behind universal time. -/
def leapNight : Timestamp :=
  ⟨⟨2024, 2, 29, isDate_leapDay⟩, (clock? 23 30 0).getD firstSecond, micros 999999,
    Offset.of? (-3600000000)⟩

/-- The same second, two hours ahead of universal time. -/
def marchNight : Timestamp :=
  ⟨⟨2024, 3, 1, isDate_march⟩, (clock? 2 30 0).getD firstSecond, micros 0,
    Offset.of? 7200000000⟩

/-- The first half hour of the calendar, an hour ahead of universal time. -/
def oldest : Timestamp :=
  ⟨⟨1, 1, 1, isDate_oldest⟩, (clock? 0 30 0).getD firstSecond, micros 0,
    Offset.of? 3600000000⟩

/-- The offset leads over the end of a month, and out of the calendar. -/
theorem universalText_denotes_leapNight :
    leapNight.universalText? = some "2024-03-01T00:30:00Z" ∧
    (∃ reading : WallClock, reading.IsValid ∧ reading.text = "2024-03-01T00:30:00Z" ∧
      reading.unixSeconds = leapNight.unixSeconds) ∧
    marchNight.universalText? = leapNight.universalText? ∧ oldest.universalText? = none := by
  have written : leapNight.universalText? = some "2024-03-01T00:30:00Z" := by decide +kernel
  have denotes := universalText_denotes.2 leapNight
  obtain ⟨reading, valid, shown, second, -⟩ := denotes.shows _ written
  refine ⟨written, ⟨reading, valid, shown, second⟩, ?_, ?_⟩
  · exact (denotes.alike (by rw [written]; rfl) marchNight).mpr (by decide +kernel)
  · have outside : ¬ WallClock.first.unixSeconds ≤ oldest.unixSeconds := by decide +kernel
    have none := (universalText_denotes.2 oldest).returns.not.mpr (fun inside => outside inside.1)
    simpa using none

end Timestamp

end NextOffer
