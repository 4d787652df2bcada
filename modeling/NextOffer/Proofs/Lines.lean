import Mathlib.Data.List.Basic
import NextOffer.Proofs.Number.Text
import NextOffer.Tables

/-! # Lines and columns

A text of lines is taken apart into its lines again, as far as they have no line breaks inside.
A row of a table begins with a number and goes on with cells, whose widths are known when they
have been cut.
-/

namespace NextOffer

namespace Text

/-- The lines of a text. -/
def lines (text : String) : List String := (text.toList.splitOn '\n').map String.ofList

def IsLine (text : String) : Prop := '\n' ∉ text.toList

instance (text : String) : Decidable (IsLine text) := inferInstanceAs (Decidable (¬ _))

theorem lines_of_isLine {text : String} (line : IsLine text) : lines text = [text] := by
  rw [lines, List.splitOn_eq_singleton line, List.map_singleton, String.ofList_toList]

theorem lines_append_break (text rest : String) :
    lines (text ++ "\n" ++ rest) = lines text ++ lines rest := by
  have whole : (text ++ "\n" ++ rest).toList = text.toList ++ '\n' :: rest.toList := by simp
  rw [lines, whole, List.splitOn_append_cons_self, List.map_append, ← lines, ← lines]

theorem lines_unlines {texts : List String} (nonempty : texts ≠ []) :
    lines (unlines texts) = texts.flatMap lines := by
  induction texts with
  | nil => exact absurd rfl nonempty
  | cons first rest ih =>
      cases rest with
      | nil => simp [unlines]
      | cons second more =>
          rw [unlines, String.intercalate_cons_cons, ← unlines, lines_append_break,
            ih (List.cons_ne_nil _ _)]
          rfl

theorem flatMap_lines {texts : List String} (each : ∀ text ∈ texts, IsLine text) :
    texts.flatMap lines = texts := by
  induction texts with
  | nil => rfl
  | cons first rest ih =>
      obtain ⟨here, later⟩ := List.forall_mem_cons.mp each
      rw [List.flatMap_cons, lines_of_isLine here, ih later, List.singleton_append]

theorem lines_unlines_append {front : List String} (nonempty : front ≠ [])
    (each : ∀ text ∈ front, IsLine text) (rest : List String) :
    lines (unlines (front ++ rest)) = front ++ rest.flatMap lines := by
  rw [lines_unlines (List.append_ne_nil_of_left_ne_nil nonempty _), List.flatMap_append,
    flatMap_lines each]

@[simp] theorem isLine_append {first second : String} :
    IsLine (first ++ second) ↔ IsLine first ∧ IsLine second := by
  simp [IsLine, not_or]

theorem isLine_intercalate {separator : String} (line : IsLine separator) {texts : List String}
    (each : ∀ text ∈ texts, IsLine text) : IsLine (separator.intercalate texts) := by
  induction texts with
  | nil => simp [IsLine]
  | cons first rest ih =>
      obtain ⟨here, later⟩ := List.forall_mem_cons.mp each
      cases rest with
      | nil => simpa using here
      | cons second more =>
          rw [String.intercalate_cons_cons, isLine_append, isLine_append]
          exact ⟨⟨here, line⟩, ih later⟩

@[simp] theorem isLine_fill (width : Nat) (cell : String) : IsLine (fill width cell) := by
  simp [IsLine, fill]

@[simp] theorem isLine_left {width : Nat} {cell : String} :
    IsLine (left width cell) ↔ IsLine cell := by
  simp [left]

@[simp] theorem isLine_right {width : Nat} {cell : String} :
    IsLine (right width cell) ↔ IsLine cell := by
  simp [right]

theorem IsLine.cut {cell : String} (line : IsLine cell) (width : Nat) :
    IsLine (cut width cell) := by
  rw [IsLine, Text.cut, String.toList_ofList]
  exact fun member => line (List.mem_of_mem_take member)

theorem isLine_toString (n : Nat) : IsLine (toString n) := by
  rw [IsLine, Nat.toString_eq_ofList_toDigits, String.toList_ofList]
  intro member
  have digit := isDigit_of_mem_toDigits '\n' member
  simp at digit

/-- The text with blanks behind it, up to a width. -/
def flushLeft (width : Nat) (text : String) : String :=
  String.ofList (text.toList.rightpad width ' ')

/-- The text with blanks before it, up to a width. -/
def flushRight (width : Nat) (text : String) : String :=
  String.ofList (text.toList.leftpad width ' ')

/-- The front of the text, cut to a width or with blanks behind it up to that. -/
def cell (width : Nat) (text : String) : String :=
  flushLeft width (String.ofList (text.toList.take width))

theorem left_eq_flushLeft (width : Nat) (text : String) :
    left width text = flushLeft width text := by
  simp [left, fill, flushLeft, List.rightpad, String.length_toList]

theorem right_eq_flushRight (width : Nat) (text : String) :
    right width text = flushRight width text := by
  simp [right, fill, flushRight, List.leftpad, String.length_toList]

theorem left_cut_eq_cell (width : Nat) (text : String) :
    left width (cut width text) = cell width text :=
  left_eq_flushLeft _ _

theorem length_cell (width : Nat) (text : String) : (cell width text).toList.length = width := by
  simp [cell, flushLeft, List.rightpad]

end Text

namespace Binary64

theorem isLine_fixed (places : Nat) (x : Binary64) :
    Text.IsLine (String.ofList (x.fixed places)) := by
  have apart {cs : List Char} (numeral : ∀ c ∈ cs, isNumeral c = true) : '\n' ∉ cs := by
    intro member
    exact absurd (numeral '\n' member) (by decide)
  rw [Text.IsLine, String.toList_ofList]
  refine apart fun c member => ?_
  cases x with
  | nan => exact isNumeral_of_mem_chars (x := nan) member
  | infinity negative => exact isNumeral_of_mem_chars (x := infinity negative) member
  | finite negative quanta exact =>
      have padded {count : Nat} {digit : Char} {n : Nat}
          (inside : digit ∈ List.replicate count '0' ++ Nat.toDigits 10 n) :
          isNumeral digit = true := by
        rcases List.mem_append.mp inside with zero | digit
        · obtain rfl := List.eq_of_mem_replicate zero
          rfl
        · exact isNumeral_of_isDigit (isDigit_of_mem_toDigits _ digit)
      rw [fixed, List.mem_append, List.mem_append] at member
      rcases member with (sign | whole) | fraction
      · split at sign
        case isTrue =>
            obtain rfl := List.mem_singleton.mp sign
            rfl
        case isFalse => cases sign
      · exact padded (List.mem_of_mem_take whole)
      · split at fraction
        case isTrue => cases fraction
        case isFalse =>
            rcases List.mem_cons.mp fraction with rfl | fraction
            · rfl
            · exact padded (List.mem_of_mem_drop fraction)

end Binary64

namespace Tables

open Text

/-- The number at the beginning of a row, behind blanks, and what stands behind it. -/
def leadingNumber (cs : List Char) : Nat × List Char :=
  let body := cs.dropWhile (· == ' ')
  let digits := leadingDigits body
  (Nat.ofDigitChars 10 digits 0, body.drop digits.length)

theorem leadingNumber_right {width n : Nat} {rest : List Char}
    (stop : ∀ c ∈ rest.head?, c.isDigit = false) (indent : Nat) :
    leadingNumber (List.replicate indent ' ' ++ ((right width (toString n)).toList ++ rest)) =
      (n, rest) := by
  obtain ⟨c, more, shape, digit⟩ := toDigits_eq_cons n
  have visible : (c == ' ') = false := by
    rw [beq_eq_false_iff_ne]
    rintro rfl
    simp at digit
  have body : (List.replicate indent ' ' ++ ((right width (toString n)).toList ++ rest)).dropWhile
      (· == ' ') = Nat.toDigits 10 n ++ rest := by
    rw [right, fill, Nat.toString_eq_ofList_toDigits, String.toList_append, String.toList_ofList,
      String.toList_ofList, List.append_assoc, List.dropWhile_append_of_pos (by simp),
      List.dropWhile_append_of_pos (by simp), shape, List.cons_append, List.dropWhile_cons, visible]
    rfl
  rw [leadingNumber, body, leadingDigits_append isDigit_of_mem_toDigits stop,
    ofDigitChars_toDigits, List.drop_left]

/-- Cells of so many characters each, and the one that takes the rest. -/
def cellsFrom : List Nat → List Char → List String
  | [], cs => [String.ofList (cs.drop 2)]
  | width :: widths, cs =>
      String.ofList ((cs.drop 2).take width) :: cellsFrom widths ((cs.drop 2).drop width)

/-- The number of a row, and its other cells. -/
def cells (widths : List Nat) (row : String) : Nat × List String :=
  ((leadingNumber row.toList).1, cellsFrom widths (leadingNumber row.toList).2)

/-- Cells with two blanks in front of each. -/
def spaced (cells : List String) : List Char := cells.flatMap fun cell => ' ' :: ' ' :: cell.toList

theorem toList_row (first : String) (rest : List String) :
    (row (first :: rest)).toList = List.replicate 2 ' ' ++ (first.toList ++ spaced rest) := by
  have joined : ("  ".intercalate (first :: rest)).toList = first.toList ++ spaced rest := by
    induction rest generalizing first with
    | nil => simp [spaced]
    | cons second more ih =>
        rw [String.intercalate_cons_cons, String.toList_append, ih, String.toList_append,
          List.append_assoc]
        rfl
  rw [row, String.toList_append, joined]
  rfl

theorem cellsFrom_spaced {widths : List Nat} {inner : List String}
    (known : List.Forall₂ (fun width cell => cell.toList.length = width) widths inner)
    (last : String) : cellsFrom widths (spaced (inner ++ [last])) = inner ++ [last] := by
  induction known with
  | nil => simp [spaced, cellsFrom]
  | @cons width cell widths inner here _ ih =>
      have shape : (spaced (cell :: inner ++ [last])).drop 2 =
          cell.toList ++ spaced (inner ++ [last]) := rfl
      rw [cellsFrom, shape, ← here, List.take_left, List.drop_left, ih, String.ofList_toList]
      rfl

/-- A row is read cell by cell when all cells but its last have the widths that they should. -/
theorem cells_row {widths : List Nat} {inner : List String}
    (known : List.Forall₂ (fun width cell => cell.toList.length = width) widths inner)
    (width number : Nat) (last : String) :
    cells widths (row (right width (toString number) :: (inner ++ [last]))) =
      (number, inner ++ [last]) := by
  have stop : ∀ c ∈ (spaced (inner ++ [last])).head?, c.isDigit = false := by
    cases inner <;> simp [spaced]
  rw [cells, toList_row, leadingNumber_right stop, cellsFrom_spaced known]

/-- The row of a ranked product: its rank, the front of its name, its decision and its score. -/
def productRow (recommendation : Recommendation) : String :=
  "  " ++ flushRight 4 (toString recommendation.rank) ++ "  " ++
    cell 28 recommendation.product.name ++ "  " ++ flushRight 8 recommendation.decision.word ++
    "  " ++ flushRight 8 (String.ofList (recommendation.score.fixed 2))

/-- The row of a rule that fired: its number, the fronts of its identifier and of its name, and
    what it did. -/
def ruleRow (number : Nat) (entry : TraceEntry) : String :=
  "  " ++ flushRight 3 (toString number) ++ "  " ++ cell 24 entry.ruleId ++ "  " ++
    cell 36 entry.ruleName ++ "  " ++
    if entry.effectDescription = "" then "(no changes)" else entry.effectDescription

theorem rankingRow_eq_productRow (recommendation : Recommendation) :
    rankingRow recommendation = productRow recommendation := by
  simp only [rankingRow, row, productRow, String.intercalate_cons_cons,
    String.intercalate_singleton, left_cut_eq_cell, right_eq_flushRight, String.append_assoc]

theorem traceRow_eq_ruleRow (number : Nat) (entry : TraceEntry) :
    traceRow number entry = ruleRow number entry := by
  simp only [traceRow, row, ruleRow, String.intercalate_cons_cons,
    String.intercalate_singleton, left_cut_eq_cell, right_eq_flushRight, String.append_assoc]

theorem cells_productRow (recommendation : Recommendation) :
    cells [28, 8] (productRow recommendation) =
      (recommendation.rank,
        [cell 28 recommendation.product.name, flushRight 8 recommendation.decision.word,
          flushRight 8 (String.ofList (recommendation.score.fixed 2))]) := by
  have decision : (flushRight 8 recommendation.decision.word).toList.length = 8 := by
    cases recommendation.decision <;> rfl
  rw [← rankingRow_eq_productRow, rankingRow, left_cut_eq_cell, right_eq_flushRight 8,
    right_eq_flushRight 8]
  exact cells_row (.cons (length_cell 28 _) (.cons decision .nil)) 4 _ _

theorem cells_ruleRow (number : Nat) (entry : TraceEntry) :
    cells [24, 36] (ruleRow number entry) =
      (number, [cell 24 entry.ruleId, cell 36 entry.ruleName,
        if entry.effectDescription = "" then "(no changes)" else entry.effectDescription]) := by
  rw [← traceRow_eq_ruleRow, traceRow, left_cut_eq_cell, left_cut_eq_cell]
  exact cells_row (.cons (length_cell 24 _) (.cons (length_cell 36 _) .nil)) 3 _ _

theorem isLine_row {cells : List String} (each : ∀ cell ∈ cells, IsLine cell) :
    IsLine (row cells) := by
  rw [row, isLine_append]
  exact ⟨by decide, isLine_intercalate (by decide) each⟩

theorem isLine_productRow {recommendation : Recommendation}
    (name : IsLine recommendation.product.name) : IsLine (productRow recommendation) := by
  rw [← rankingRow_eq_productRow]
  have decision : IsLine recommendation.decision.word := by
    cases recommendation.decision <;> decide
  refine isLine_row ?_
  simp only [List.forall_mem_cons, isLine_right, isLine_left, isLine_toString, name.cut, decision,
    Binary64.isLine_fixed, true_and, List.not_mem_nil, false_imp_iff, implies_true]

theorem isLine_ruleRow {entry : TraceEntry} (id : IsLine entry.ruleId)
    (name : IsLine entry.ruleName) (description : IsLine entry.effectDescription) (number : Nat) :
    IsLine (ruleRow number entry) := by
  rw [← traceRow_eq_ruleRow]
  refine isLine_row ?_
  simp only [List.forall_mem_cons, isLine_right, isLine_left, isLine_toString, id.cut, name.cut,
    true_and, List.not_mem_nil, false_imp_iff, implies_true, and_true]
  split
  case isTrue => decide
  case isFalse => exact description

end Tables

end NextOffer
