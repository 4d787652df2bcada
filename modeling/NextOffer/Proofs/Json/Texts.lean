import NextOffer.Loading
import NextOffer.Proofs.Json.Reading
import NextOffer.Proofs.Number.Text

/-! # Whole texts of values

A text that was written holds no carriage return, as it holds no control characters but line
feeds, so that reading a file leaves it as it is, and the value is read back. On one line and with
wide characters escaped it holds basic Latin only. In turn, a value
that was read, from whatever text, has no name twice in an object and no integer with too many
digits, at any depth.
-/

namespace NextOffer

theorem Text.lineFeeds_of_not_mem {cs : List Char} (none : '\r' ∉ cs) : lineFeeds cs = cs := by
  induction cs with
  | nil => rfl
  | cons c rest ih =>
      rw [List.mem_cons, not_or] at none
      rw [lineFeeds, if_neg (Ne.symm none.1), ih none.2]

namespace Json

open Outcome

/-! ## The characters of texts -/

/-- A character of basic Latin that is no control character. -/
def isLatin (c : Char) : Bool := decide (0x20 ≤ c.toNat) && decide (c.toNat < 0x7f)

theorem isLatin_of_isNumeral {c : Char} (numeral : isNumeral c = true) : isLatin c = true := by
  rw [isNumeral, Bool.or_eq_true, List.contains_iff_mem] at numeral
  rcases numeral with digit | sign
  · have low : 48 ≤ c.toNat := (Char.isDigit_iff_toNat.mp digit).1
    have high : c.toNat ≤ 57 := (Char.isDigit_iff_toNat.mp digit).2
    simp only [isLatin, Bool.and_eq_true, decide_eq_true_eq]
    omega
  · have all : "+-.einfa".toList.all isLatin = true := by decide
    exact List.all_eq_true.mp all c sign

theorem isLatin_digitChar {n : Nat} (small : n < 16) : isLatin (Nat.digitChar n) = true := by
  have all : ∀ digit : Fin 16, isLatin (Nat.digitChar digit.val) = true := by decide
  exact all ⟨n, small⟩

theorem isLatin_toDigits (n : Nat) : ∀ c ∈ Nat.toDigits 16 n, isLatin c = true := by
  induction n using Nat.strongRecOn with
  | ind n ih =>
      by_cases last : n < 16
      · rw [Nat.toDigits_of_lt_base last]
        simpa using isLatin_digitChar last
      · rw [Nat.toDigits_of_base_le (by decide) (Nat.le_of_not_lt last)]
        simpa [or_imp, forall_and] using
          ⟨ih _ (by omega), isLatin_digitChar (Nat.mod_lt n (by decide))⟩

theorem isLatin_unitEscape (unit : Nat) : ∀ c ∈ unitEscape unit, isLatin c = true := by
  have hex : ∀ c ∈ Text.hex 4 unit, isLatin c = true := by
    simp only [Text.hex, List.forall_mem_append]
    exact ⟨fun c zero => List.eq_of_mem_replicate zero ▸ rfl, isLatin_toDigits unit⟩
  simp only [unitEscape, List.forall_mem_cons]
  exact ⟨rfl, rfl, hex⟩

theorem isLatin_wideEscape (c : Char) : ∀ d ∈ wideEscape c, isLatin d = true := by
  unfold wideEscape
  split
  case isTrue => exact isLatin_unitEscape _
  case isFalse =>
      exact List.forall_mem_append.mpr ⟨isLatin_unitEscape _, isLatin_unitEscape _⟩

theorem isLatin_numberText (x : Number) : ∀ c ∈ numberText x, isLatin c = true := by
  intro c member
  unfold numberText at member
  split at member
  case h_1 => exact isLatin_of_isNumeral (isNumeral_of_mem_signedDigits member)
  case h_2 => exact List.all_eq_true.mp (show "NaN".toList.all isLatin = true by decide) c member
  case h_3 negative =>
      have all : ((if negative then ['-'] else []) ++ "Infinity".toList).all isLatin = true := by
        cases negative <;> decide
      exact List.all_eq_true.mp all c member
  case h_4 => exact isLatin_of_isNumeral (Binary64.isNumeral_of_mem_chars member)

namespace Form

/-- A character of a text in this form: one of basic Latin, one beyond it unless these are
escaped, or a line feed if items have lines of their own. -/
def isWritten (form : Form) (c : Char) : Bool :=
  isLatin c || (!form.escapeWide && decide (0x20 ≤ c.toNat)) || (form.indent.isSome && c == '\n')

variable {form : Form}

theorem isWritten_of_isLatin {cs : List Char} (latin : ∀ c ∈ cs, isLatin c = true) :
    ∀ c ∈ cs, form.isWritten c = true := by
  intro c member
  rw [isWritten, latin c member, Bool.true_or, Bool.true_or]

theorem isWritten_of_all {cs : List Char} (latin : cs.all isLatin = true) :
    ∀ c ∈ cs, form.isWritten c = true :=
  isWritten_of_isLatin (List.all_eq_true.mp latin)

theorem isWritten_charText (c : Char) :
    ∀ d ∈ charText form.escapeWide c, form.isWritten d = true := by
  unfold charText
  iterate 7
    split
    case isTrue => exact isWritten_of_all rfl
  split
  case isTrue => exact isWritten_of_isLatin (isLatin_unitEscape _)
  case isFalse low =>
  split
  case isTrue => exact isWritten_of_isLatin (isLatin_wideEscape c)
  case isFalse narrow =>
      have plain : form.isWritten c = true := by
        cases wide : form.escapeWide <;> simp_all [isWritten, isLatin]
      simpa using plain

theorem isWritten_stringText (text : String) :
    ∀ c ∈ stringText form.escapeWide text, form.isWritten c = true := by
  simp only [stringText, List.cons_append, List.forall_mem_cons, List.forall_mem_append,
    List.forall_mem_flatMap]
  exact ⟨rfl, fun c _ => isWritten_charText c, rfl, List.forall_mem_nil _⟩

theorem isWritten_opening (depth : Nat) : ∀ c ∈ form.opening depth, form.isWritten c = true := by
  unfold opening
  split
  case h_1 => nofun
  case h_2 blanks lines =>
      have feed : form.isWritten '\n' = true := by simp [isWritten, lines]
      exact List.forall_mem_cons.mpr ⟨feed, isWritten_of_isLatin fun c blank =>
        List.eq_of_mem_replicate blank ▸ rfl⟩

theorem Regular.isWritten (regular : form.Regular) :
    (∀ c ∈ form.colon, form.isWritten c = true) ∧ ∀ c ∈ form.comma, form.isWritten c = true := by
  obtain ⟨⟨_, colon⟩, _, comma⟩ := regular
  have blanks (count : Nat) : ∀ c ∈ List.replicate count ' ', isLatin c = true :=
    fun c blank => List.eq_of_mem_replicate blank ▸ rfl
  rw [colon, comma]
  exact ⟨isWritten_of_isLatin (List.forall_mem_cons.mpr ⟨rfl, blanks _⟩),
    isWritten_of_isLatin (List.forall_mem_cons.mpr ⟨rfl, blanks _⟩)⟩

mutual

theorem isWritten_chars (regular : form.Regular) (v : Value) (depth : Nat) :
    ∀ c ∈ form.chars depth v, form.isWritten c = true := by
  cases v with
  | null =>
      rw [chars]
      exact isWritten_of_all rfl
  | bool truth => cases truth <;> rw [chars] <;> exact isWritten_of_all rfl
  | number x =>
      rw [chars]
      exact isWritten_of_isLatin (isLatin_numberText x)
  | string text =>
      rw [chars]
      exact isWritten_stringText text
  | array items =>
      cases items with
      | nil =>
          rw [chars]
          exact isWritten_of_all rfl
      | cons item rest =>
          have first := isWritten_chars regular item (depth + 1)
          have later := isWritten_itemsChars regular rest (depth + 1)
          simp only [chars, List.cons_append, List.forall_mem_cons, List.forall_mem_append]
          exact ⟨rfl, ⟨⟨⟨isWritten_opening _, first⟩, later⟩, isWritten_opening _⟩, rfl,
            List.forall_mem_nil _⟩
  | object entries =>
      cases entries with
      | nil =>
          rw [chars]
          exact isWritten_of_all rfl
      | cons entry rest =>
          cases entry with | mk name value =>
          have first := isWritten_chars regular value (depth + 1)
          have later := isWritten_entriesChars regular rest (depth + 1)
          simp only [chars, List.cons_append, List.forall_mem_cons, List.forall_mem_append]
          exact ⟨rfl, ⟨⟨⟨⟨⟨isWritten_opening _, isWritten_stringText name⟩, regular.isWritten.1⟩,
            first⟩, later⟩, isWritten_opening _⟩, rfl, List.forall_mem_nil _⟩
termination_by sizeOf v

theorem isWritten_itemsChars (regular : form.Regular) (items : List Value) (depth : Nat) :
    ∀ c ∈ form.itemsChars depth items, form.isWritten c = true := by
  cases items with
  | nil => nofun
  | cons item rest =>
      have first := isWritten_chars regular item depth
      have later := isWritten_itemsChars regular rest depth
      simp only [itemsChars, List.forall_mem_append]
      exact ⟨⟨⟨regular.isWritten.2, isWritten_opening _⟩, first⟩, later⟩
termination_by sizeOf items

theorem isWritten_entriesChars (regular : form.Regular) (entries : List (String × Value))
    (depth : Nat) : ∀ c ∈ form.entriesChars depth entries, form.isWritten c = true := by
  cases entries with
  | nil => nofun
  | cons entry rest =>
      cases entry with | mk name value =>
      have first := isWritten_chars regular value depth
      have later := isWritten_entriesChars regular rest depth
      simp only [entriesChars, List.forall_mem_append]
      exact ⟨⟨⟨⟨⟨regular.isWritten.2, isWritten_opening _⟩, isWritten_stringText name⟩,
        regular.isWritten.1⟩, first⟩, later⟩
termination_by sizeOf entries

end

theorem not_mem_chars (regular : form.Regular) (v : Value) {c : Char} (control : c.toNat < 0x20)
    (other : c ≠ '\n') : c ∉ form.chars 0 v := by
  intro member
  have written := isWritten_chars regular v 0 c member
  simp [isWritten, isLatin, other, Nat.not_le.mpr control] at written

theorem isLatin_of_mem_chars (regular : form.Regular) (narrow : form.escapeWide = true)
    (line : form.indent = none) (v : Value) : ∀ c ∈ form.chars 0 v, isLatin c = true := by
  intro c member
  simpa [isWritten, narrow, line] using isWritten_chars regular v 0 c member

end Form

/-! ## What is written is read back -/

theorem read_chars {form : Form} (regular : form.Regular) {v : Value}
    (legible : v.Everywhere Value.IsLegible) {levels : Nat} (room : v.height ≤ levels) :
    read levels (form.chars 0 v) = .ok v := by
  have whole : value levels (2 * (form.chars 0 v).length + 2) (form.chars 0 v ++ []) =
      .ok (v, []) :=
    value_chars regular v legible room (by omega) nofun
  have noGap := form.skipGap_chars 0 v []
  rw [List.append_nil] at whole noGap
  have noMark : (form.chars 0 v).head? ≠ some '\ufeff' := by
    obtain ⟨c, more, shape, -, -, noMark⟩ := form.chars_eq_cons 0 v
    simpa [shape] using noMark
  unfold read
  rw [if_neg noMark, noGap, whole]
  rfl

mutual

theorem height_le_length (form : Form) (v : Value) (depth : Nat) :
    v.height ≤ (form.chars depth v).length := by
  have some {v : Value} : 1 ≤ (form.chars depth v).length := by
    obtain ⟨c, more, shape, -⟩ := form.chars_eq_cons depth v
    rw [shape, List.length_cons]
    omega
  cases v with
  | null | bool _ | number _ | string _ => simpa only [Value.height] using some
  | array items =>
      cases items with
      | nil => exact some
      | cons item rest =>
          have first := height_le_length form item (depth + 1)
          have later := itemsHeight_le_length form rest (depth + 1)
          simp only [Value.height, Value.itemsHeight, Form.chars, List.length_append,
            List.length_cons]
          omega
  | object entries =>
      cases entries with
      | nil => exact some
      | cons entry rest =>
          cases entry with | mk name value =>
          have first := height_le_length form value (depth + 1)
          have later := entriesHeight_le_length form rest (depth + 1)
          simp only [Value.height, Value.entriesHeight, Form.chars, List.length_append,
            List.length_cons]
          omega
termination_by sizeOf v

theorem itemsHeight_le_length (form : Form) (items : List Value) (depth : Nat) :
    Value.itemsHeight items ≤ (form.itemsChars depth items).length := by
  cases items with
  | nil => simp [Value.itemsHeight]
  | cons item rest =>
      have first := height_le_length form item depth
      have later := itemsHeight_le_length form rest depth
      simp only [Value.itemsHeight, Form.itemsChars, List.length_append]
      omega
termination_by sizeOf items

theorem entriesHeight_le_length (form : Form) (entries : List (String × Value)) (depth : Nat) :
    Value.entriesHeight entries ≤ (form.entriesChars depth entries).length := by
  cases entries with
  | nil => simp [Value.entriesHeight]
  | cons entry rest =>
      cases entry with | mk name value =>
      have first := height_le_length form value depth
      have later := entriesHeight_le_length form rest depth
      simp only [Value.entriesHeight, Form.entriesChars, List.length_append]
      omega
termination_by sizeOf entries

end

/-- The text of a value is read as that value, however high it is. -/
theorem parse_text {form : Form} (regular : form.Regular) {v : Value}
    (legible : v.Everywhere Value.IsLegible) : parse (form.text v) = .ok v := by
  have room := height_le_length form v 0
  rw [parse, parseWithin, Form.text, String.toList_ofList, String.length_ofList,
    read_chars regular legible room]
  rfl

/-! ## What is read -/

theorem atom_legible {cs rest : List Char} {v : Value} (read : atom cs = .ok (v, rest)) :
    v.Everywhere Value.IsLegible := by
  unfold atom at read
  split at read
  case h_1 word value found =>
      cases read
      have member := List.mem_of_find?_eq_some found
      simp only [words, List.mem_cons, Prod.mk.injEq, List.not_mem_nil, or_false] at member
      rcases member with ⟨-, rfl⟩ | ⟨-, rfl⟩ | ⟨-, rfl⟩ | ⟨-, rfl⟩ | ⟨-, rfl⟩ | ⟨-, rfl⟩ <;>
        exact .ofAtom ⟨trivial, trivial⟩ nofun nofun
  case h_2 =>
      split at read
      · cases read
      · cases read
        exact .ofAtom ⟨trivial, trivial⟩ nofun nofun
      · split at read
        case isTrue short =>
            cases read
            exact .ofAtom ⟨trivial, short⟩ nofun nofun
        case isFalse => cases read

/-- Whatever is read with so much fuel is legible. -/
structure LegibleAt (fuel : Nat) : Prop where
  value : ∀ {levels cs v rest}, value levels fuel cs = .ok (v, rest) →
    v.Everywhere Value.IsLegible
  items : ∀ {levels cs found rest}, items levels fuel cs = .ok (found, rest) →
    ∀ item ∈ found, item.Everywhere Value.IsLegible
  entries : ∀ {levels cs found rest}, entries levels fuel cs = .ok (found, rest) →
    ∀ entry ∈ found, entry.2.Everywhere Value.IsLegible

namespace LegibleAt

variable {fuel levels : Nat} {cs rest : List Char}

theorem zero : LegibleAt 0 where
  value read := by cases read
  items read := by cases read
  entries read := by cases read

theorem next_value (legible : LegibleAt fuel) {v : Value}
    (read : Json.value levels (fuel + 1) cs = .ok (v, rest)) : v.Everywhere Value.IsLegible := by
  unfold Json.value at read
  split at read
  case h_1 => cases read
  case h_2 => cases read
  case h_3 less c text same =>
      cases same
      split_ifs at read
      · obtain ⟨_, _, same⟩ := bind_eq_ok_iff.mp read
        cases same
        exact .ofAtom ⟨trivial, trivial⟩ (by simp) (by simp)
      · cases read
        exact .ofItems ⟨trivial, trivial⟩ (by simp)
      · obtain ⟨_, inner, same⟩ := bind_eq_ok_iff.mp read
        cases same
        exact .ofItems ⟨trivial, trivial⟩ (legible.items inner)
      · cases read
        exact .ofEntries ⟨.nil, trivial⟩ (by simp)
      · obtain ⟨_, inner, same⟩ := bind_eq_ok_iff.mp read
        cases same
        exact .ofEntries ⟨Fields.nodup_names_ofWrites _, trivial⟩ fun entry member =>
          legible.entries inner entry (Fields.mem_of_mem_ofWrites member)
      · exact atom_legible read

theorem next_items (legible : LegibleAt fuel) {found : List Value}
    (read : Json.items levels (fuel + 1) cs = .ok (found, rest)) :
    ∀ item ∈ found, item.Everywhere Value.IsLegible := by
  rw [Json.items] at read
  obtain ⟨⟨item, after⟩, first, read⟩ := bind_eq_ok_iff.mp read
  dsimp only at read
  split_ifs at read
  · cases read
    simpa using legible.value first
  · obtain ⟨_, later, same⟩ := bind_eq_ok_iff.mp read
    cases same
    exact List.forall_mem_cons.mpr ⟨legible.value first, legible.items later⟩

theorem next_entries (legible : LegibleAt fuel) {found : List (String × Value)}
    (read : Json.entries levels (fuel + 1) cs = .ok (found, rest)) :
    ∀ entry ∈ found, entry.2.Everywhere Value.IsLegible := by
  rw [Json.entries] at read
  split at read
  case isFalse => cases read
  obtain ⟨⟨name, behind⟩, -, read⟩ := bind_eq_ok_iff.mp read
  dsimp only at read
  split at read
  case isFalse => cases read
  obtain ⟨⟨item, after⟩, first, read⟩ := bind_eq_ok_iff.mp read
  dsimp only at read
  split_ifs at read
  · cases read
    simpa using legible.value first
  · obtain ⟨_, later, same⟩ := bind_eq_ok_iff.mp read
    cases same
    exact List.forall_mem_cons.mpr ⟨legible.value first, legible.entries later⟩

end LegibleAt

theorem legibleAt (fuel : Nat) : LegibleAt fuel := by
  induction fuel with
  | zero => exact .zero
  | succ fuel ih => exact ⟨ih.next_value, ih.next_items, ih.next_entries⟩

theorem read_legible {levels : Nat} {cs : List Char} {v : Value}
    (done : read levels cs = .ok v) : v.Everywhere Value.IsLegible := by
  unfold read at done
  dsimp only at done
  split at done
  case isTrue => cases done
  obtain ⟨⟨result, rest⟩, first, done⟩ := bind_eq_ok_iff.mp done
  dsimp only at done
  split_ifs at done
  cases done
  exact (legibleAt _).value first

end Json

namespace Loading

open Json

theorem readValue_text (path : FilePath) {form : Form} (regular : form.Regular) {v : Value}
    (legible : v.Everywhere Value.IsLegible) (room : v.height ≤ levels) :
    readValue path (some (form.text v)) = .ok v := by
  have noReturn : '\r' ∉ form.chars 0 v := Form.not_mem_chars regular v (by decide) (by decide)
  rw [readValue, Form.text, String.toList_ofList, Text.lineFeeds_of_not_mem noReturn, parseWithin,
    String.toList_ofList, read_chars regular legible room]
  rfl

/-- Whatever a file holds, it is read as a legible value. -/
theorem readValue_legible {path : FilePath} {content : Option String} {v : Value}
    (held : readValue path content = .ok v) : v.Everywhere Value.IsLegible := by
  cases content with
  | none => cases held
  | some text =>
      rw [readValue, Outcome.mapError_eq_ok_iff, parseWithin, Outcome.mapError_eq_ok_iff] at held
      exact read_legible held

end Loading

end NextOffer
