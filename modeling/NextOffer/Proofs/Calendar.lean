import Mathlib.Algebra.Order.Ring.Nat
import NextOffer.Calendar.Data
import NextOffer.Proofs.Outcome

/-! # Points in time are read back

The text that a point in time has in JSON is read as that point, as long as its offset is of
whole minutes: the date, the time of day, the fraction and the offset, each in front of
whatever follows it.
-/

namespace NextOffer

namespace Calendar

/-! ## Padded numbers -/

theorem length_padded {width n : Nat} (fits : n < 10 ^ width) (wide : 0 < width) :
    (Date.padded width n).length = width := by
  have short : (Nat.toDigits 10 n).length ≤ width :=
    (Nat.length_toDigits_le_iff (by decide) wide).mpr fits
  simp only [Date.padded, List.length_append, List.length_replicate]
  omega

theorem isDigit_of_mem_padded {width n : Nat} {c : Char} (member : c ∈ Date.padded width n) :
    c.isDigit = true := by
  rw [Date.padded, List.mem_append] at member
  rcases member with zero | digit
  · rw [List.eq_of_mem_replicate zero]
    rfl
  · exact Nat.isDigit_of_mem_toDigits (by decide) (by decide) digit

theorem ofDigitChars_padded (width n : Nat) :
    Nat.ofDigitChars 10 (Date.padded width n) 0 = n := by
  rw [Date.padded, Nat.ofDigitChars_append, Nat.ofDigitChars_replicate_zero, Nat.mul_zero,
    Nat.ofDigitChars_toDigits (by decide) (by decide)]

theorem digits?_padded {width n : Nat} (fits : n < 10 ^ width) (wide : 0 < width)
    (rest : List Char) : digits? width (Date.padded width n ++ rest) = some (n, rest) := by
  have length := length_padded fits wide
  have front : (Date.padded width n ++ rest).take width = Date.padded width n := by
    rw [List.take_append_of_le_length (by omega), List.take_of_length_le (by omega)]
  have back : (Date.padded width n ++ rest).drop width = rest := by
    rw [List.drop_append_of_le_length (by omega), List.drop_of_length_le (by omega),
      List.nil_append]
  have digits : (Date.padded width n).all Char.isDigit = true :=
    List.all_eq_true.mpr fun c member => isDigit_of_mem_padded member
  simp only [digits?, front, back, length, digits, ofDigitChars_padded, and_self, if_true]

@[simp] theorem char?_cons (c : Char) (rest : List Char) : char? c (c :: rest) = some rest := by
  simp [char?]

/-! ## Dates -/

theorem monthLength_le (year month : Nat) : monthLength year month ≤ 31 := by
  have each : ∀ length ∈ monthLengths year, length ≤ 31 := by
    unfold monthLengths
    split <;> decide
  unfold monthLength
  split
  · decide
  · cases found : (monthLengths year)[month - 1]? with
    | none => simp
    | some length => exact each length (List.mem_of_getElem? found)

theorem length_le_utf8ByteSize (cs : List Char) :
    cs.length ≤ (String.ofList cs).utf8ByteSize := by
  induction cs with
  | nil => simp
  | cons c cs ih =>
      have positive := c.utf8Size_pos
      rw [String.ofList_cons, String.utf8ByteSize_append, String.utf8ByteSize_singleton,
        List.length_cons]
      omega

theorem date_lt (date : Date) :
    date.year < 10 ^ 4 ∧ date.month < 10 ^ 2 ∧ date.day < 10 ^ 2 := by
  obtain ⟨_, _, _, _, _, last⟩ := date.valid
  have longest := monthLength_le date.year date.month
  omega

theorem length_dateChars (date : Date) : date.chars.length = 10 := by
  obtain ⟨year, month, day⟩ := date_lt date
  simp [Date.chars, length_padded year, length_padded month, length_padded day]

theorem leadingDate_chars (date : Date) (rest : List Char) :
    leadingDate (String.ofList (date.chars ++ rest)) =
      .ok (date.year, date.month, date.day, rest) := by
  obtain ⟨_, _, _, _, _, last⟩ := date.valid
  have longest := monthLength_le date.year date.month
  obtain ⟨year, month, day⟩ := date_lt date
  have size := length_le_utf8ByteSize (date.chars ++ rest)
  have length := length_dateChars date
  rw [List.length_append] at size
  unfold leadingDate
  rw [if_neg (by omega), String.toList_ofList, Date.chars]
  simp only [List.append_assoc, List.cons_append, digits?_padded year (by decide),
    digits?_padded month (by decide), digits?_padded day (by decide), char?_cons]
  rw [if_neg (show ¬ (date.month < 1 ∨ 12 < date.month) by omega),
    if_neg (show ¬ (date.day < 1 ∨ monthLength date.year date.month < date.day) by omega)]
  rfl

theorem isDigit_of_mem_dateChars {date : Date} {c : Char} (member : c ∈ date.chars) :
    c.isDigit = true ∨ c = '-' := by
  simp only [Date.chars, List.mem_append, List.mem_cons] at member
  rcases member with (year | dash | month) | dash | day
  · exact .inl (isDigit_of_mem_padded year)
  · exact .inr dash
  · exact .inl (isDigit_of_mem_padded month)
  · exact .inr dash
  · exact .inl (isDigit_of_mem_padded day)

theorem dateText_inj {date date' : Date} (same : date.text = date'.text) : date = date' := by
  have read (date : Date) : leadingDate date.text = .ok (date.year, date.month, date.day, []) := by
    simpa [Date.text] using leadingDate_chars date []
  have first := read date
  rw [same, read date'] at first
  cases date
  cases date'
  cases first
  rfl

/-! ## Times of day -/

theorem clock?_of_second (second : Fin 86400) :
    Timestamp.clock? (second / 3600) (second / 60 % 60) (second % 60) = some second := by
  have bound := second.isLt
  rw [Timestamp.clock?, dif_pos (by omega), Option.some.injEq, Fin.ext_iff]
  simp only
  omega

/-- Nothing in front of the text goes on with a fraction or begins one. -/
def EndsFraction (rest : List Char) : Prop :=
  ∀ c ∈ rest.head?, c.isDigit = false ∧ c ≠ '.' ∧ c ≠ ','

theorem microseconds_padded (microsecond : Fin 1000000) :
    microseconds (Date.padded 6 microsecond) = microsecond := by
  have bound := microsecond.isLt
  have length := length_padded (show microsecond.val < 10 ^ 6 by omega) (by decide)
  rw [microseconds, List.take_append_of_le_length (by omega), List.take_of_length_le (by omega),
    ofDigitChars_padded]
  exact Fin.ext (Nat.mod_eq_of_lt bound)

theorem fraction_fractionChars (t : Timestamp) {rest : List Char} (ends : EndsFraction rest) :
    fraction (t.fractionChars ++ rest) = (t.microsecond, rest) := by
  unfold Timestamp.fractionChars
  split
  case isTrue zero =>
      have stop : ¬ (rest.head? = some '.' ∨ rest.head? = some ',') := by
        rintro (point | comma)
        · exact (ends '.' point).2.1 rfl
        · exact (ends ',' comma).2.2 rfl
      rw [List.nil_append, fraction, if_neg stop]
      exact Prod.ext (Fin.ext (by simp [Timestamp.micros, zero])) rfl
  case isFalse =>
      have bound := t.microsecond.isLt
      have length := length_padded (show t.microsecond.val < 10 ^ 6 by omega) (by decide)
      have stop : rest.takeWhile Char.isDigit = [] := by
        cases rest with
        | nil => rfl
        | cons c rest => simp [(ends c rfl).1]
      have digits : (Date.padded 6 t.microsecond ++ rest).takeWhile Char.isDigit =
          Date.padded 6 t.microsecond := by
        rw [List.takeWhile_append_of_pos fun c member => isDigit_of_mem_padded member, stop,
          List.append_nil]
      have given : Date.padded 6 t.microsecond ≠ [] := by
        intro none
        simp [none] at length
      simp [fraction, digits, given, microseconds_padded]

/-! ## Offsets -/

theorem dataOffset?_minutesChars {size : Nat} (negative : Bool) (small : size < 86400)
    (whole : size % 60 = 0) :
    dataOffset? (Timestamp.minutesChars negative size) =
      (Offset.of? ((if negative then -(size : Int) else size) * 1000000)).map some := by
  have hour := digits?_padded (show size / 3600 < 10 ^ 2 by omega) (by decide)
    (':' :: Date.padded 2 (size / 60 % 60))
  have minute := digits?_padded (show size / 60 % 60 < 10 ^ 2 by omega) (by decide) []
  rw [List.append_nil] at minute
  have minutes : size / 60 % 60 < 60 := Nat.mod_lt _ (by decide)
  have total : ((size / 3600 : Nat) : Int) * 3600 + ((size / 60 % 60 : Nat) : Int) * 60 = size := by
    omega
  rw [← total, Option.map_eq_bind]
  cases negative <;> simp [Timestamp.minutesChars, dataOffset?, hour, minute, minutes]

end Calendar

namespace Timestamp

open Calendar

/-- The offset behind a point in its text in JSON. -/
def jsonOffset : Option Offset → List Char
  | none => []
  | some offset =>
      if offset.seconds = 0 then ['Z']
      else minutesChars (decide (offset.seconds < 0)) offset.seconds.natAbs

theorem jsonText_eq (t : Timestamp) :
    t.jsonText = String.ofList (t.localChars ++ jsonOffset t.offset) := by
  unfold jsonText jsonOffset
  cases t.offset <;> rfl

/-- If there is an offset, it is of whole minutes. -/
def HasWholeMinutes (t : Timestamp) : Prop := ∀ offset ∈ t.offset, offset.val % 60000000 = 0

theorem endsFraction_jsonOffset (offset : Option Offset) : EndsFraction (jsonOffset offset) := by
  cases offset with
  | none => rintro _ ⟨⟩
  | some offset =>
      rw [jsonOffset]
      split
      · rintro _ ⟨⟩
        decide
      · unfold minutesChars
        rintro c found
        split at found <;> cases found <;> decide

theorem dataOffset?_jsonOffset {offset : Option Offset}
    (whole : ∀ given ∈ offset, given.val % 60000000 = 0) :
    dataOffset? (jsonOffset offset) = some offset := by
  cases offset with
  | none => rfl
  | some offset =>
      have minutes := whole offset rfl
      have seconds : offset.seconds = offset.val / 1000000 := rfl
      rw [jsonOffset]
      split
      case isTrue zero =>
          have nothing : offset.val = 0 := by omega
          have universal : offset = Offset.universal := Subtype.ext nothing
          rw [universal]
          rfl
      case isFalse =>
          obtain ⟨low, high⟩ := offset.2
          have micros : (if decide (offset.seconds < 0) = true then -(offset.seconds.natAbs : Int)
              else offset.seconds.natAbs) * 1000000 = offset.val := by
            split <;> rename_i sign <;> rw [decide_eq_true_eq] at sign <;> omega
          rw [dataOffset?_minutesChars _ (by omega) (by omega), micros, Offset.of?,
            dif_pos offset.2]
          rfl

/-! ## Points in time -/

theorem dataClock?_jsonOffset {t : Timestamp} (whole : t.HasWholeMinutes) :
    dataClock? ('T' :: (t.clockChars ++ (t.fractionChars ++ jsonOffset t.offset))) =
      some (t.second, t.microsecond, t.offset) := by
  have bound := t.second.isLt
  have hour := digits?_padded (show t.second.val / 3600 < 10 ^ 2 by omega) (by decide)
  have minute := digits?_padded (show t.second.val / 60 % 60 < 10 ^ 2 by omega) (by decide)
  have second := digits?_padded (show t.second.val % 60 < 10 ^ 2 by omega) (by decide)
  have rest := fraction_fractionChars t (endsFraction_jsonOffset t.offset)
  simp [dataClock?, clockChars, dataSeconds?, hour, minute, second, rest, clock?_of_second,
    dataOffset?_jsonOffset whole]

/-- A point whose offset is of whole minutes is read back from its text in JSON. -/
theorem ofDataText_jsonText {t : Timestamp} (whole : t.HasWholeMinutes) :
    ofDataText t.jsonText = .ok t := by
  have dated : ofDatedText t.jsonText = .ok t := by
    have date : Date.of? t.date.year t.date.month t.date.day = some t.date := by
      rw [Date.of?, dif_pos t.date.valid]
    rw [jsonText_eq, localChars]
    simp only [List.append_assoc, List.cons_append]
    rw [ofDatedText, leadingDate_chars]
    simp [Except.mapError, dataClock?_jsonOffset whole, date]
  rw [ofDataText, dated]

end Timestamp

end NextOffer
