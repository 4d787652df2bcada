import NextOffer.Proofs.Json.Numbers
import NextOffer.Proofs.Json.Strings

/-! # Values are read back

The text of a value, in front of anything that cannot go on with a number, is read as that
value: by induction on the value, with as much fuel as the text is long and as many levels as
the value is high.
-/

namespace NextOffer

namespace Json

open Outcome

/-! ## Blanks -/

def IsBlank (cs : List Char) : Prop := ∀ c ∈ cs, isGap c = true

theorem isBlank_nil : IsBlank [] := nofun

theorem isBlank_replicate (count : Nat) : IsBlank (List.replicate count ' ') := by
  simp [IsBlank, isGap]

theorem isBlank_opening (form : Form) (depth : Nat) : IsBlank (form.opening depth) := by
  unfold Form.opening
  split
  · exact isBlank_nil
  · exact List.forall_mem_cons.mpr ⟨rfl, isBlank_replicate _⟩

theorem skipGap_append {gap : List Char} (blank : IsBlank gap) (rest : List Char) :
    skipGap (gap ++ rest) = skipGap rest :=
  List.dropWhile_append_of_pos blank

theorem skipGap_cons {c : Char} (stop : isGap c = false) (rest : List Char) :
    skipGap (c :: rest) = c :: rest := by
  simp [skipGap, stop]

theorem endsNumber_append {gap rest : List Char} {c : Char} (blank : IsBlank gap)
    (separator : c = ',' ∨ c = ']' ∨ c = '\x7d') : EndsNumber (gap ++ c :: rest) := by
  cases gap with
  | nil =>
      rintro _ ⟨⟩
      rcases separator with rfl | rfl | rfl <;> decide
  | cons first gap =>
      rintro _ ⟨⟩
      have gap := blank first List.mem_cons_self
      simp only [isGap, Bool.or_eq_true, beq_iff_eq] at gap
      rcases gap with ((rfl | rfl) | rfl) | rfl <;> decide

/-! ## How texts begin -/

namespace Form

/-- Separators with nothing but blanks behind them, which change no value. -/
structure Regular (form : Form) : Prop where
  colon : ∃ blanks, form.colon = ':' :: List.replicate blanks ' '
  comma : ∃ blanks, form.comma = ',' :: List.replicate blanks ' '

theorem regular_spaced : spaced.Regular := ⟨⟨1, rfl⟩, 1, rfl⟩

theorem regular_indented : indented.Regular := ⟨⟨1, rfl⟩, 0, rfl⟩

theorem regular_indentedLatin : indentedLatin.Regular := ⟨⟨1, rfl⟩, 0, rfl⟩

theorem chars_eq_cons (form : Form) (depth : Nat) (v : Value) :
    ∃ c more, form.chars depth v = c :: more ∧ isGap c = false ∧ c ≠ ']' ∧ c ≠ '\ufeff' := by
  cases v with
  | null => exact ⟨'n', _, by rw [chars]; rfl, by decide⟩
  | bool value =>
      cases value with
      | false => exact ⟨'f', _, by rw [chars]; rfl, by decide⟩
      | true => exact ⟨'t', _, by rw [chars]; rfl, by decide⟩
  | number x =>
      obtain ⟨c, more, shape, digit | rfl | rfl | rfl⟩ := numberText_eq_cons x
      · have noGap : isGap c = false := by
          simp only [isGap, Bool.or_eq_false_iff, beq_eq_false_iff_ne]
          refine ⟨⟨⟨?_, ?_⟩, ?_⟩, ?_⟩ <;> rintro rfl <;> simp at digit
        refine ⟨c, more, by rw [chars, shape], noGap, ?_, ?_⟩ <;> rintro rfl <;> simp at digit
      all_goals exact ⟨_, more, by rw [chars, shape], by decide⟩
  | string text => exact ⟨'"', _, by rw [chars, stringText]; rfl, by decide⟩
  | array items =>
      cases items with
      | nil => exact ⟨'[', _, by rw [chars], by decide⟩
      | cons item rest => exact ⟨'[', _, by rw [chars]; rfl, by decide⟩
  | object entries =>
      cases entries with
      | nil => exact ⟨'\x7b', _, by rw [chars], by decide⟩
      | cons entry rest => exact ⟨'\x7b', _, by rw [chars]; rfl, by decide⟩

theorem skipGap_chars (form : Form) (depth : Nat) (v : Value) (rest : List Char) :
    skipGap (form.chars depth v ++ rest) = form.chars depth v ++ rest := by
  obtain ⟨c, more, shape, stop, -⟩ := form.chars_eq_cons depth v
  rw [shape, List.cons_append, skipGap_cons stop]

end Form

/-! ## One step of the reader -/

section Steps

variable {levels fuel : Nat} {cs after next rest : List Char} {item : Value}

theorem value_of_number {x : Number} (ends : EndsNumber rest)
    (short : (Value.number x).HasShortInteger) :
    value levels (fuel + 1) (numberText x ++ rest) = .ok (.number x, rest) := by
  obtain ⟨c, more, shape, begins⟩ :
      ∃ c more, numberText x = c :: more ∧ c ≠ '"' ∧ c ≠ '[' ∧ c ≠ '\x7b' := by
    obtain ⟨c, more, shape, digit | rfl | rfl | rfl⟩ := numberText_eq_cons x
    · refine ⟨c, more, shape, ?_, ?_, ?_⟩ <;> rintro rfl <;> simp at digit
    all_goals exact ⟨_, more, shape, by decide⟩
  rw [← atom_numberText short ends, shape, List.cons_append, value, if_neg begins.1,
    if_neg begins.2.1, if_neg begins.2.2]

theorem value_of_items {found : List Value} (room : levels ≠ 0)
    (some : (skipGap cs).head? ≠ some ']')
    (read : items (levels - 1) fuel (skipGap cs) = .ok (found, rest)) :
    value levels (fuel + 1) ('[' :: cs) = .ok (.array found, rest) := by
  simp [value, room, some, read]

theorem value_of_entries {found : List (String × Value)} (room : levels ≠ 0)
    (some : (skipGap cs).head? ≠ some '\x7d')
    (read : entries (levels - 1) fuel (skipGap cs) = .ok (found, rest)) :
    value levels (fuel + 1) ('\x7b' :: cs) = .ok (.object (Fields.ofWrites found), rest) := by
  simp [value, room, some, read]

theorem items_of_last (read : value levels fuel cs = .ok (item, after))
    (close : skipGap after = ']' :: rest) :
    items levels (fuel + 1) cs = .ok ([item], rest) := by
  simp [items, read, close]

theorem items_of_more {others : List Value} (read : value levels fuel cs = .ok (item, after))
    (comma : skipGap after = ',' :: next)
    (later : items levels fuel (skipGap next) = .ok (others, rest)) :
    items levels (fuel + 1) cs = .ok (item :: others, rest) := by
  simp [items, read, comma, later]

variable {name : String} {behind text : List Char}

theorem entries_of_last (named : string cs = .ok (name, behind))
    (colon : skipGap behind = ':' :: text)
    (read : value levels fuel (skipGap text) = .ok (item, after))
    (close : skipGap after = '\x7d' :: rest) :
    entries levels (fuel + 1) ('"' :: cs) = .ok ([(name, item)], rest) := by
  simp [entries, named, colon, read, close]

theorem entries_of_more {others : List (String × Value)} (named : string cs = .ok (name, behind))
    (colon : skipGap behind = ':' :: text)
    (read : value levels fuel (skipGap text) = .ok (item, after))
    (comma : skipGap after = ',' :: next)
    (later : entries levels fuel (skipGap next) = .ok (others, rest)) :
    entries levels (fuel + 1) ('"' :: cs) = .ok ((name, item) :: others, rest) := by
  simp [entries, named, colon, read, comma, later]

theorem value_of_itemsChars {form : Form} {depth : Nat} {found : List Value} (room : levels ≠ 0)
    (read : items (levels - 1) fuel (form.chars (depth + 1) item ++ after) = .ok (found, rest)) :
    value levels (fuel + 1)
        ('[' :: (form.opening (depth + 1) ++ (form.chars (depth + 1) item ++ after))) =
      .ok (.array found, rest) := by
  obtain ⟨c, more, shape, -, noEnd, -⟩ := form.chars_eq_cons (depth + 1) item
  refine value_of_items room ?_ ?_
  · rw [skipGap_append (isBlank_opening form _), form.skipGap_chars, shape]
    simpa using noEnd
  · rw [skipGap_append (isBlank_opening form _), form.skipGap_chars, read]

/-- An object with distinct names is read when its entries are, behind the brace and the line
    break. The reader writes entries one by one, which leaves distinct names as they are. -/
theorem value_of_entriesChars {form : Form} {depth : Nat} {found : Fields Value}
    (distinct : found.names.Nodup) (room : levels ≠ 0)
    (read : entries (levels - 1) fuel (stringText form.escapeWide name ++ after) =
      .ok (found, rest)) :
    value levels (fuel + 1)
        ('\x7b' :: (form.opening (depth + 1) ++ (stringText form.escapeWide name ++ after))) =
      .ok (.object found, rest) := by
  obtain ⟨body, shape, -⟩ := string_stringText form.escapeWide name after
  rw [shape] at read ⊢
  rw [← Fields.ofWrites_of_nodup distinct]
  refine value_of_entries room ?_ ?_
  · rw [skipGap_append (isBlank_opening form _), skipGap_cons rfl]
    simp
  · rw [skipGap_append (isBlank_opening form _), skipGap_cons rfl, read]

end Steps

/-! ## Values -/

mutual

/-- The text of a value is read as that value, and what stands behind it remains. -/
theorem value_chars {form : Form} (regular : form.Regular) (v : Value)
    (legible : v.Everywhere Value.IsLegible) {levels fuel depth : Nat} (room : v.height ≤ levels)
    (enough : (form.chars depth v).length ≤ fuel) {rest : List Char} (ends : EndsNumber rest) :
    value levels fuel (form.chars depth v ++ rest) = .ok (v, rest) := by
  obtain ⟨less, rfl⟩ : ∃ less, fuel = less + 1 := by
    obtain ⟨c, more, shape, -⟩ := form.chars_eq_cons depth v
    rw [shape, List.length_cons] at enough
    exact ⟨fuel - 1, by omega⟩
  cases v with
  | null => simp [Form.chars, value, atom, words, List.isPrefixOf]
  | bool truth => cases truth <;> simp [Form.chars, value, atom, words, List.isPrefixOf]
  | number x =>
      rw [Form.chars]
      exact value_of_number ends legible.root.2
  | string text =>
      obtain ⟨body, shape, read⟩ := string_stringText form.escapeWide text rest
      rw [Form.chars, shape, value, if_pos rfl, read]
      rfl
  | array items =>
      rw [Value.height] at room
      cases items with
      | nil =>
          have close : skipGap (']' :: rest) = ']' :: rest := skipGap_cons rfl rest
          simp [Form.chars, value, close, show levels ≠ 0 by omega]
      | cons item others =>
          have first := legible.item List.mem_cons_self
          rw [Form.chars] at enough ⊢
          simp only [List.length_cons, List.length_append] at enough
          simp only [List.cons_append, List.nil_append, List.append_assoc]
          have read := items_chars regular item others first
            (fun _ member => legible.item (List.mem_cons_of_mem _ member))
            (show Value.itemsHeight (item :: others) ≤ levels - 1 by omega)
            (show (form.chars (depth + 1) item).length +
              (form.itemsChars (depth + 1) others).length < less by omega)
            (isBlank_opening form depth) rest
          exact value_of_itemsChars (by omega) read
  | object entries =>
      rw [Value.height] at room
      cases entries with
      | nil =>
          have close : skipGap ('\x7d' :: rest) = '\x7d' :: rest := skipGap_cons rfl rest
          simp [Form.chars, value, close, show levels ≠ 0 by omega]
      | cons entry others =>
          cases entry with | mk name item =>
          rw [Form.chars] at enough ⊢
          simp only [List.length_cons, List.length_append] at enough
          simp only [List.cons_append, List.nil_append, List.append_assoc]
          have read := entries_chars regular name item others (legible.entry List.mem_cons_self)
            (fun _ member => legible.entry (List.mem_cons_of_mem _ member))
            (show Value.entriesHeight ((name, item) :: others) ≤ levels - 1 by omega)
            (show (stringText form.escapeWide name).length +
              (form.chars (depth + 1) item).length +
              (form.entriesChars (depth + 1) others).length < less by omega)
            (isBlank_opening form depth) rest
          exact value_of_entriesChars legible.root.1 (by omega) read
termination_by sizeOf v

theorem items_chars {form : Form} (regular : form.Regular) (item : Value)
    (others : List Value) (first : item.Everywhere Value.IsLegible)
    (later : ∀ other ∈ others, other.Everywhere Value.IsLegible) {levels fuel depth : Nat}
    (room : Value.itemsHeight (item :: others) ≤ levels)
    (enough : (form.chars depth item).length + (form.itemsChars depth others).length < fuel)
    {gap : List Char} (blank : IsBlank gap) (rest : List Char) :
    items levels fuel
        (form.chars depth item ++ (form.itemsChars depth others ++ (gap ++ ']' :: rest))) =
      .ok (item :: others, rest) := by
  obtain ⟨less, rfl⟩ : ∃ less, fuel = less + 1 := ⟨fuel - 1, by omega⟩
  rw [Value.itemsHeight] at room
  cases others with
  | nil =>
      refine items_of_last (value_chars regular item first (by omega) (by omega)
        (endsNumber_append blank (.inr (.inl rfl)))) ?_
      rw [Form.itemsChars, List.nil_append, skipGap_append blank, skipGap_cons rfl]
  | cons next others =>
      obtain ⟨blanks, comma⟩ := regular.comma
      have legibleNext := later next List.mem_cons_self
      rw [Form.itemsChars, comma] at enough ⊢
      simp only [List.length_append, List.length_cons] at enough
      simp only [List.append_assoc, List.cons_append]
      have read := items_chars regular next others legibleNext
        (fun other member => later other (List.mem_cons_of_mem _ member))
        (show Value.itemsHeight (next :: others) ≤ levels by omega)
        (show (form.chars depth next).length + (form.itemsChars depth others).length < less by
          omega) blank rest
      refine items_of_more (value_chars regular item first (by omega) (by omega)
        (endsNumber_append isBlank_nil (.inl rfl))) (skipGap_cons rfl _) ?_
      rw [skipGap_append (isBlank_replicate blanks), skipGap_append (isBlank_opening form depth),
        form.skipGap_chars, read]
termination_by sizeOf (item :: others)

theorem entries_chars {form : Form} (regular : form.Regular) (name : String) (item : Value)
    (others : List (String × Value)) (first : item.Everywhere Value.IsLegible)
    (later : ∀ other ∈ others, other.2.Everywhere Value.IsLegible) {levels fuel depth : Nat}
    (room : Value.entriesHeight ((name, item) :: others) ≤ levels)
    (enough : (stringText form.escapeWide name).length + (form.chars depth item).length +
      (form.entriesChars depth others).length < fuel)
    {gap : List Char} (blank : IsBlank gap) (rest : List Char) :
    entries levels fuel
        (stringText form.escapeWide name ++ (form.colon ++ (form.chars depth item ++
          (form.entriesChars depth others ++ (gap ++ '\x7d' :: rest))))) =
      .ok ((name, item) :: others, rest) := by
  obtain ⟨less, rfl⟩ : ∃ less, fuel = less + 1 := ⟨fuel - 1, by omega⟩
  rw [Value.entriesHeight] at room
  obtain ⟨blanks, colon⟩ := regular.colon
  obtain ⟨body, shape, named⟩ := string_stringText form.escapeWide name
    (form.colon ++ (form.chars depth item ++ (form.entriesChars depth others ++
      (gap ++ '\x7d' :: rest))))
  rw [shape]
  rw [colon] at named
  have whole {after : List Char} (ends : EndsNumber after) :
      value levels less (skipGap (List.replicate blanks ' ' ++ (form.chars depth item ++ after))) =
        .ok (item, after) := by
    rw [skipGap_append (isBlank_replicate blanks), form.skipGap_chars]
    exact value_chars regular item first (by omega) (by omega) ends
  cases others with
  | nil =>
      rw [Form.entriesChars, List.nil_append] at named
      refine entries_of_last named (skipGap_cons rfl _)
        (whole (endsNumber_append blank (.inr (.inr rfl)))) ?_
      rw [skipGap_append blank, skipGap_cons rfl]
  | cons next others =>
      cases next with | mk nextName next =>
      obtain ⟨space, comma⟩ := regular.comma
      rw [Form.entriesChars, comma] at enough named
      simp only [List.length_append, List.length_cons] at enough
      simp only [List.append_assoc, List.cons_append] at named
      have read := entries_chars regular nextName next others (later _ List.mem_cons_self)
        (fun other member => later other (List.mem_cons_of_mem _ member))
        (show Value.entriesHeight ((nextName, next) :: others) ≤ levels by omega)
        (show (stringText form.escapeWide nextName).length + (form.chars depth next).length +
          (form.entriesChars depth others).length < less by omega) blank rest
      obtain ⟨nextBody, nextShape, -⟩ := string_stringText form.escapeWide nextName
        (form.colon ++ (form.chars depth next ++ (form.entriesChars depth others ++
          (gap ++ '\x7d' :: rest))))
      refine entries_of_more named (skipGap_cons rfl _)
        (whole (endsNumber_append isBlank_nil (.inl rfl))) (skipGap_cons rfl _) ?_
      rw [nextShape] at read ⊢
      rw [skipGap_append (isBlank_replicate space), skipGap_append (isBlank_opening form depth),
        skipGap_cons rfl, read]
termination_by sizeOf ((name, item) :: others)

end

end Json

end NextOffer
