import NextOffer.Proofs.Console
import NextOffer.Report.Files

/-! # Reading comma separated values

A reader of comma separated values goes through a text character by character. Fields have commas
between them. A field that begins with a quote goes on to a quote that is not doubled, and there
a doubled quote is one; any other field has neither quotes nor line breaks. A record ends with
carriage return and line feed. The reader gets back what was written, whatever characters there
are in it, and so a saved ranking is read back field by field.
-/

namespace NextOffer

namespace Csv

/-- Where a reader is. -/
inductive Place where
  /-- Before the first character of a field. -/
  | opening
  /-- In a field without quotes. -/
  | plain
  /-- In a field between quotes. -/
  | quoted
  /-- After a quote in such a field, which ends the field or is the first of two. -/
  | quote
  /-- After the carriage return behind the last field of a record. -/
  | ended
  deriving DecidableEq

/-- What a reader has read: records, fields of the next record, characters of the next field. -/
structure Reading where
  place : Place := .opening
  field : List Char := []
  fields : List (List Char) := []
  records : List (List (List Char)) := []

namespace Reading

def keep (reading : Reading) (place : Place) (c : Char) : Reading :=
  { reading with place, field := reading.field ++ [c] }

def endField (reading : Reading) : Reading :=
  { reading with place := .opening, field := [], fields := reading.fields ++ [reading.field] }

def endRecord (reading : Reading) : Reading :=
  { records := reading.records ++ [reading.fields ++ [reading.field]] }

/-- Read what stands behind a field. -/
def leave? (reading : Reading) (c : Char) : Option Reading :=
  if c = ',' then some reading.endField
  else if c = '\r' then some { reading with place := .ended }
  else none

/-- Read a character. None when it must not stand here. -/
def step? (reading : Reading) (c : Char) : Option Reading :=
  match reading.place with
  | .opening =>
      if c = '"' then some { reading with place := .quoted }
      else if c = ',' ∨ c = '\r' ∨ c = '\n' then reading.leave? c
      else some (reading.keep .plain c)
  | .plain =>
      if c = '"' ∨ c = ',' ∨ c = '\r' ∨ c = '\n' then reading.leave? c
      else some (reading.keep .plain c)
  | .quoted =>
      if c = '"' then some { reading with place := .quote } else some (reading.keep .quoted c)
  | .quote => if c = '"' then some (reading.keep .quoted '"') else reading.leave? c
  | .ended => if c = '\n' then some reading.endRecord else none

def run? (reading : Reading) : List Char → Option Reading
  | [] => some reading
  | c :: rest => (reading.step? c).bind (run? · rest)

/-- The records at the end of a text. The end of the last record may be missing. -/
def finish? (reading : Reading) : Option (List (List (List Char))) :=
  match reading.place with
  | .opening => if reading.fields = [] then some reading.records else some reading.endRecord.records
  | .plain | .quote => some reading.endRecord.records
  | .quoted | .ended => none

end Reading

/-- The records of a text of comma separated values. None when it is no such text. -/
def read? (text : String) : Option (List (List String)) :=
  ((({} : Reading).run? text.toList).bind Reading.finish?).map
    (List.map (List.map String.ofList))

namespace Reading

theorem run?_append (reading : Reading) (front back : List Char) :
    reading.run? (front ++ back) = (reading.run? front).bind (run? · back) := by
  induction front generalizing reading with
  | nil => rfl
  | cons c rest ih =>
      rw [List.cons_append, run?, run?]
      cases reading.step? c with
      | none => rfl
      | some next => exact ih next

variable {reading next : Reading} {cs : List Char}

theorem run?_append_of_run? {front : List Char} (through : reading.run? front = some next)
    (back : List Char) : reading.run? (front ++ back) = next.run? back := by
  rw [run?_append, through, Option.bind_some]

theorem step?_of_plain {c : Char} (plain : isSpecial c = false)
    (here : reading.place = .opening ∨ reading.place = .plain) :
    reading.step? c = some (reading.keep .plain c) := by
  simp only [isSpecial, Bool.or_eq_false_iff, beq_eq_false_iff_ne] at plain
  rcases here with place | place <;> simp [step?, place, plain]

theorem run?_plain (plain : ∀ c ∈ cs, isSpecial c = false) (field : List Char)
    (fields : List (List Char)) (records : List (List (List Char))) :
    run? ⟨.plain, field, fields, records⟩ cs = some ⟨.plain, field ++ cs, fields, records⟩ := by
  induction cs generalizing field with
  | nil => simp [run?]
  | cons c rest ih =>
      obtain ⟨here, later⟩ := List.forall_mem_cons.mp plain
      rw [run?, step?_of_plain here (.inr rfl), Option.bind_some, keep, ih later]
      simp

/-- Between quotes every character is read back, a quote from two. -/
theorem run?_escaped (cs field : List Char) (fields : List (List Char))
    (records : List (List (List Char))) :
    run? ⟨.quoted, field, fields, records⟩ (cs.flatMap escaped) =
      some ⟨.quoted, field ++ cs, fields, records⟩ := by
  induction cs generalizing field with
  | nil => simp [run?]
  | cons c rest ih =>
      have kept : run? ⟨.quoted, field, fields, records⟩ (escaped c) =
          some ⟨.quoted, field ++ [c], fields, records⟩ := by
        by_cases quote : c = '"' <;> simp [escaped, quote, run?, step?, keep]
      rw [List.flatMap_cons, run?_append_of_run? kept, ih]
      simp

/-- The field that the reader is in may end here. -/
def MayEnd (place : Place) : Prop := place = .opening ∨ place = .plain ∨ place = .quote

theorem run?_field (cs : List Char) (fields : List (List Char))
    (records : List (List (List Char))) :
    ∃ place, MayEnd place ∧
      run? ⟨.opening, [], fields, records⟩ (Csv.field cs) = some ⟨place, cs, fields, records⟩ := by
  unfold Csv.field
  split
  case isTrue =>
      refine ⟨.quote, .inr (.inr rfl), ?_⟩
      have opened : run? ⟨.opening, [], fields, records⟩ ['"'] =
          some ⟨.quoted, [], fields, records⟩ := rfl
      rw [List.cons_append, ← List.singleton_append, run?_append_of_run? opened,
        run?_append_of_run? (run?_escaped cs [] fields records)]
      rfl
  case isFalse plain =>
      have plain : ∀ c ∈ cs, isSpecial c = false := by simpa using plain
      cases cs with
      | nil => exact ⟨.opening, .inl rfl, rfl⟩
      | cons c rest =>
          refine ⟨.plain, .inr (.inl rfl), ?_⟩
          obtain ⟨here, later⟩ := List.forall_mem_cons.mp plain
          rw [run?, step?_of_plain here (.inl rfl), Option.bind_some, keep, run?_plain later]
          rfl

theorem step?_of_mayEnd (mayEnd : MayEnd reading.place) {c : Char} (leaves : c = ',' ∨ c = '\r') :
    reading.step? c = reading.leave? c := by
  rcases mayEnd with place | place | place <;> rcases leaves with rfl | rfl <;> simp [step?, place]

theorem step?_comma (mayEnd : MayEnd reading.place) :
    reading.step? ',' = some reading.endField := by
  rw [step?_of_mayEnd mayEnd (.inl rfl)]
  rfl

theorem run?_lineEnd (mayEnd : MayEnd reading.place) :
    reading.run? ['\r', '\n'] = some reading.endRecord := by
  rw [run?, step?_of_mayEnd mayEnd (.inr rfl)]
  rfl

theorem run?_fields {written : List (List Char)} (nonempty : written ≠ [])
    (fields : List (List Char)) (records : List (List (List Char))) :
    ∃ reached : Reading, MayEnd reached.place ∧ reached.records = records ∧
      reached.fields ++ [reached.field] = fields ++ written ∧
      run? ⟨.opening, [], fields, records⟩ ([','].intercalate (written.map Csv.field)) =
        some reached := by
  induction written generalizing fields with
  | nil => exact absurd rfl nonempty
  | cons first rest ih =>
      obtain ⟨place, mayEnd, through⟩ := run?_field first fields records
      cases rest with
      | nil => exact ⟨_, mayEnd, rfl, rfl, by simpa using through⟩
      | cons second more =>
          obtain ⟨reached, ends, same, told, further⟩ :=
            ih (List.cons_ne_nil _ _) (fields ++ [first])
          refine ⟨reached, ends, same, by simpa using told, ?_⟩
          rw [List.map_cons, List.map_cons, List.intercalate_cons_cons, List.append_assoc,
            run?_append_of_run? through, List.singleton_append, run?, step?_comma mayEnd]
          exact further

theorem run?_record {written : List (List Char)} (nonempty : written ≠ [])
    (records : List (List (List Char))) :
    run? { records } (record written) = some { records := records ++ [written] } := by
  obtain ⟨reached, mayEnd, same, told, through⟩ := run?_fields nonempty [] records
  rw [record, run?_append_of_run? through, run?_lineEnd mayEnd, endRecord, same, told]
  rfl

theorem run?_records {written : List (List (List Char))}
    (nonempty : ∀ fields ∈ written, fields ≠ []) (records : List (List (List Char))) :
    run? { records } (written.flatMap record) = some { records := records ++ written } := by
  induction written generalizing records with
  | nil => simp [run?]
  | cons first rest ih =>
      obtain ⟨here, later⟩ := List.forall_mem_cons.mp nonempty
      rw [List.flatMap_cons, run?_append_of_run? (run?_record here records), ih later]
      simp

end Reading

/-- What was written is read back, record by record. -/
theorem read?_flatMap_record {written : List (List (List Char))}
    (nonempty : ∀ fields ∈ written, fields ≠ []) :
    read? (String.ofList (written.flatMap record)) =
      some (written.map (List.map String.ofList)) := by
  have through := Reading.run?_records nonempty []
  rw [read?, String.toList_ofList, through]
  rfl

/-- What a reader of a ranking is told: the header, and the fields of each recommendation. -/
def rows (recommendations : List Recommendation) : List (List String) :=
  ["rank", "product_id", "product_name", "decision", "score", "why"] ::
    recommendations.map fun recommendation =>
      [toString recommendation.rank, recommendation.product.id, recommendation.product.name,
        recommendation.decision.word, (Number.real recommendation.score).text,
        " | ".intercalate recommendation.why]

theorem read?_text (recommendations : List Recommendation) :
    read? (text recommendations) = some (rows recommendations) := by
  have nonempty : ∀ row ∈ header :: recommendations.map fields, row ≠ [] := by
    simp [header, fields]
  rw [text, chars, read?_flatMap_record nonempty, rows, List.map_cons, List.map_map]
  congr 2
  refine List.map_congr_left fun recommendation _ => ?_
  have rank : String.ofList (Nat.toDigits 10 recommendation.rank) = toString recommendation.rank :=
    (Nat.toString_eq_ofList_toDigits).symm
  have score : String.ofList recommendation.score.chars =
      (Number.real recommendation.score).text := rfl
  simp only [Function.comp, fields, List.map_cons, List.map_nil, String.ofList_toList, rank, score]

end Csv

namespace Report

variable {around : Surroundings} {console final : Console}

/-- A ranking is read back from its text, and a file that it was saved to has this text. -/
theorem saveRanking_reads_back (recommendations : List Recommendation) :
    Csv.read? (Csv.text recommendations) = some (Csv.rows recommendations) ∧
      ∀ {directory path : FilePath} {customerId label : String},
        console.run around (saveRanking directory customerId label recommendations) =
            (.ok path, final) →
          final.disk.Holds path (Csv.text recommendations) := by
  refine ⟨Csv.read?_text recommendations, ?_⟩
  intro directory path customerId label saved
  obtain ⟨_, made, _, saved⟩ := Console.run_bind_eq_ok_iff.mp saved
  obtain ⟨_, between, wrote, told⟩ := Console.run_bind_eq_ok_iff.mp saved
  obtain ⟨disk, written, rfl⟩ := Console.run_write_eq_ok_iff.mp wrote
  rw [Console.run_pure, Prod.mk.injEq, Except.ok.injEq] at told
  obtain ⟨rfl, rfl⟩ := told
  exact Disk.holds_of_write written

/-- Commas, quotes, line breaks and empty texts in every place that takes a text. -/
def awkward : List Recommendation := [
  { product := ⟨"a,b", "the \"first\"\r\none", [], [], [], true⟩, decision := .shown, rank := 1
    score := .infinity false, why := ["", "x, y"] },
  { product := ⟨"", "\"\"", [], [], [], true⟩, decision := .hidden, rank := 12, score := .nan }]

theorem saveRanking_reads_back_awkward :
    ∃ final, Console.run {} (.bare (.midnight ⟨2026, 2, 5, by decide⟩ none))
        (saveRanking ⟨"", []⟩ "C1" "2026-02-05" awkward) =
          (.ok (rankingPath ⟨"", []⟩ "C1" "2026-02-05"), final) ∧
      final.disk.Holds (rankingPath ⟨"", []⟩ "C1" "2026-02-05") (Csv.text awkward) ∧
      Csv.read? (Csv.text awkward) = some (Csv.rows awkward) := by
  have saved : Console.run {} (.bare (.midnight ⟨2026, 2, 5, by decide⟩ none))
      (saveRanking ⟨"", []⟩ "C1" "2026-02-05" awkward) =
        (.ok (rankingPath ⟨"", []⟩ "C1" "2026-02-05"), _) := rfl
  obtain ⟨reads, holds⟩ := saveRanking_reads_back awkward
  exact ⟨_, saved, holds saved, reads⟩

end Report

end NextOffer
