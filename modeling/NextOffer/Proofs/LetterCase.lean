import NextOffer.Proofs.Text

/-! # Parts of a text in lower case

Every character has one lower case, except the capital sigma, which is final after a letter and
before none. A part of a text is the same in the lower case of the text as by itself, unless one
of its sigmas is final in one of the two only. That happens only to a sigma that nothing but
accents and the like divides from an end of the part.
-/

namespace NextOffer.Text

theorem meetsCased_skip {cs : List Char} (ignored : ∀ c ∈ cs, isCaseIgnorable c = true)
    (rest : List Char) : meetsCased (cs ++ rest) = meetsCased rest := by
  rw [meetsCased, List.dropWhile_append_of_pos ignored, meetsCased]

theorem meetsCased_of_ignorable {cs : List Char}
    (ignored : ∀ c ∈ cs, isCaseIgnorable c = true) : meetsCased cs = false := by
  rw [← List.append_nil cs, meetsCased_skip ignored]
  rfl

theorem meetsCased_append {cs : List Char} (visible : ¬ ∀ c ∈ cs, isCaseIgnorable c = true)
    (rest : List Char) : meetsCased (cs ++ rest) = meetsCased cs := by
  induction cs with
  | nil => simp at visible
  | cons c more ih =>
      cases ignored : isCaseIgnorable c with
      | false => simp [meetsCased, ignored]
      | true =>
          have later := ih fun all => visible (List.forall_mem_cons.mpr ⟨ignored, all⟩)
          simpa [meetsCased, ignored] using later

theorem meetsCased_append_of_met {cs : List Char} (met : meetsCased cs = true)
    (rest : List Char) : meetsCased (cs ++ rest) = true := by
  rw [meetsCased_append, met]
  intro ignored
  rw [meetsCased_of_ignorable ignored] at met
  cases met

/-- A capital sigma between two texts is final. -/
def IsFinal (before after : List Char) : Prop :=
  meetsCased before.reverse = true ∧ meetsCased after = false

instance (before after : List Char) : Decidable (IsFinal before after) :=
  inferInstanceAs (Decidable (_ ∧ _))

/-- The small letter of a capital sigma between two texts. -/
def sigmaForm (before after : List Char) : Char := if IsFinal before after then 'ς' else 'σ'

theorem lowerAt_sigma (before after : List Char) :
    lowerAt before.reverse 'Σ' after = [sigmaForm before after] := by
  rw [lowerAt, if_neg (by decide), if_pos rfl, sigmaForm]
  congr 2
  simp [IsFinal]

theorem sigmaForm_eq_iff {before before' after after' : List Char} :
    sigmaForm before after = sigmaForm before' after' ↔
      (IsFinal before after ↔ IsFinal before' after') := by
  unfold sigmaForm
  split <;> split <;> simp_all

theorem sigmaForm_eq_final_iff {before after : List Char} :
    sigmaForm before after = 'ς' ↔ IsFinal before after := by
  simp [sigmaForm]

theorem sigmaForm_eq_open_iff {before after : List Char} :
    sigmaForm before after = 'σ' ↔ ¬ IsFinal before after := by
  simp [sigmaForm]

theorem sigmaForm_eq_of_ne {before before' after after' : List Char} {form : Char}
    (known : form = 'ς' ∨ form = 'σ') (other : sigmaForm before after ≠ form)
    (other' : sigmaForm before' after' ≠ form) :
    sigmaForm before after = sigmaForm before' after' := by
  unfold sigmaForm at *
  rcases known with rfl | rfl <;> split <;> split <;> simp_all

theorem lowerAt_of_ne {c : Char} (other : c ≠ 'Σ') (before before' after after' : List Char) :
    lowerAt before c after = lowerAt before' c after' := by
  simp only [lowerAt, if_neg other]

/-- Lower case of a text that stands between two others. -/
def lowerWithin (before : List Char) : List Char → List Char → List Char
  | [], _ => []
  | c :: rest, after =>
      lowerAt before.reverse c (rest ++ after) ++ lowerWithin (before ++ [c]) rest after

theorem lowerFrom_append (before text after : List Char) :
    lowerFrom before.reverse (text ++ after) =
      lowerWithin before text after ++ lowerFrom (before ++ text).reverse after := by
  induction text generalizing before with
  | nil => simp [lowerWithin]
  | cons c rest ih =>
      have next := ih (before ++ [c])
      rw [List.reverse_append, List.reverse_singleton, List.singleton_append,
        List.append_assoc] at next
      rw [List.cons_append, lowerFrom, lowerWithin, next, List.append_assoc]
      rfl

theorem lowerWithin_eq_lower (text : List Char) : lowerWithin [] text [] = lower text := by
  simpa [lowerFrom, lower] using (lowerFrom_append [] text []).symm

theorem lower_part (before part after : List Char) :
    lower (before ++ part ++ after) =
      lowerWithin [] before (part ++ after) ++ lowerWithin before part after ++
        lowerWithin (before ++ part) after [] := by
  have rest := lowerFrom_append (before ++ part) after []
  have inner := lowerFrom_append before part after
  have whole := lowerFrom_append [] before (part ++ after)
  simp only [List.append_nil, lowerFrom, List.nil_append, List.reverse_nil] at rest inner whole
  rw [lower, List.append_assoc, whole, inner, rest, List.append_assoc]

/-- Between two texts, a text has its sigmas in the forms that it has them in by itself. -/
def KeepsForms (before text after : List Char) : Prop :=
  ∀ front back, text = front ++ 'Σ' :: back →
    (IsFinal (before ++ front) (back ++ after) ↔ IsFinal front back)

theorem forall_sigma_cons {c : Char} {rest : List Char} {holds : List Char → List Char → Prop} :
    (∀ front back, c :: rest = front ++ 'Σ' :: back → holds front back) ↔
      (c = 'Σ' → holds [] rest) ∧
        ∀ front back, rest = front ++ 'Σ' :: back → holds (c :: front) back := by
  constructor
  · intro all
    refine ⟨?_, fun front back same => all (c :: front) back (congrArg (c :: ·) same)⟩
    rintro rfl
    exact all [] rest rfl
  · rintro ⟨first, later⟩ front back same
    cases front with
    | nil =>
        obtain ⟨rfl, rfl⟩ := List.cons.inj same
        exact first rfl
    | cons d front =>
        obtain ⟨rfl, rfl⟩ := List.cons.inj same
        exact later front back rfl

section

variable {before before' after after' text : List Char}

/-- Two places give a text one lower case exactly when they give its sigmas the same forms. -/
theorem lowerWithin_eq_iff :
    lowerWithin before text after = lowerWithin before' text after' ↔
      ∀ front back, text = front ++ 'Σ' :: back →
        sigmaForm (before ++ front) (back ++ after) =
          sigmaForm (before' ++ front) (back ++ after') := by
  induction text generalizing before before' with
  | nil => simp [lowerWithin]
  | cons c rest ih =>
      have later := @ih (before ++ [c]) (before' ++ [c])
      simp only [List.append_assoc, List.singleton_append] at later
      rw [forall_sigma_cons, lowerWithin, lowerWithin, ← later]
      by_cases sigma : c = 'Σ'
      · subst sigma
        simp [lowerAt_sigma]
      · rw [lowerAt_of_ne sigma before.reverse before'.reverse _ (rest ++ after')]
        simp [sigma]

theorem keepsForms_iff :
    KeepsForms before text after ↔ lowerWithin before text after = lower text := by
  rw [← lowerWithin_eq_lower, lowerWithin_eq_iff]
  simp only [KeepsForms, sigmaForm_eq_iff, List.nil_append, List.append_nil]

theorem length_lowerWithin :
    (lowerWithin before text after).length = (lowerWithin before' text after').length := by
  induction text generalizing before before' with
  | nil => rfl
  | cons c rest ih =>
      rw [lowerWithin, lowerWithin, List.length_append, List.length_append, ih]
      congr 1
      by_cases sigma : c = 'Σ'
      · subst sigma
        rw [lowerAt_sigma, lowerAt_sigma]
        rfl
      · rw [lowerAt_of_ne sigma]

/-- When one form of sigma is never given up from one place to another, it is at least as
    frequent there, and if it is no more frequent nothing changes at all. -/
theorem lowerWithin_eq_of_count {form : Char} (known : form = 'ς' ∨ form = 'σ')
    (kept : ∀ front back, text = front ++ 'Σ' :: back →
      sigmaForm (before ++ front) (back ++ after) = form →
      sigmaForm (before' ++ front) (back ++ after') = form) :
    (lowerWithin before text after).count form ≤ (lowerWithin before' text after').count form ∧
      ((lowerWithin before' text after').count form ≤ (lowerWithin before text after).count form →
        lowerWithin before text after = lowerWithin before' text after') := by
  induction text generalizing before before' with
  | nil => simp [lowerWithin]
  | cons c rest ih =>
      obtain ⟨first, later⟩ := forall_sigma_cons.mp kept
      have counted := @ih (before ++ [c]) (before' ++ [c]) (by simpa using later)
      rw [lowerWithin, lowerWithin]
      by_cases sigma : c = 'Σ'
      · subst sigma
        have here : sigmaForm before (rest ++ after) = form →
            sigmaForm before' (rest ++ after') = form := by simpa using first rfl
        rw [lowerAt_sigma, lowerAt_sigma, List.singleton_append, List.singleton_append,
          List.count_cons, List.count_cons]
        by_cases shown : sigmaForm before (rest ++ after) = form
        · simpa [shown, here shown] using counted
        · by_cases shown' : sigmaForm before' (rest ++ after') = form
          · -- The form is new here, and the rest cannot make up for it.
            simp only [beq_iff_eq, shown, shown', if_true, if_false]
            exact ⟨by omega, fun more => absurd counted.1 (by omega)⟩
          · rw [sigmaForm_eq_of_ne known shown shown']
            simpa using counted
      · rw [lowerAt_of_ne sigma before.reverse before'.reverse _ (rest ++ after')]
        simpa using counted

/-- A text beside one letter holds in lower case no more sigmas of a form than its part. So the
    part by itself, if it has as many, is found there only at its place. -/
theorem keepsForms_of_infix {form : Char} (known : form = 'ς' ∨ form = 'σ')
    (kept : ∀ front back, text = front ++ 'Σ' :: back →
      sigmaForm (before ++ front) (back ++ after) = form → sigmaForm front back = form)
    (alone : (lower (before ++ text ++ after)).count form =
      (lowerWithin before text after).count form)
    (found : lower text <:+: lower (before ++ text ++ after)) : KeepsForms before text after := by
  have counted := @lowerWithin_eq_of_count before [] after [] text form known (by simpa using kept)
  rw [lowerWithin_eq_lower] at counted
  exact keepsForms_iff.mpr (counted.2 (alone ▸ found.sublist.count_le form))

end

/-- A capital sigma that is final or not according to what stands beside the text. -/
inductive Exposed (text : List Char) : Prop where
  /-- No letter stands after it, and whether one stands before it is open. -/
  | opening (front back : List Char) (here : text = front ++ 'Σ' :: back)
      (ignored : ∀ c ∈ front, isCaseIgnorable c = true) (last : meetsCased back = false)
  /-- A letter stands before it, and whether one stands after it is open. -/
  | closing (front back : List Char) (here : text = front ++ 'Σ' :: back)
      (follows : meetsCased front.reverse = true)
      (ignored : ∀ c ∈ back, isCaseIgnorable c = true)

theorem keepsForms_of_not_exposed {text : List Char} (sheltered : ¬ Exposed text)
    (before after : List Char) : KeepsForms before text after := by
  intro front back here
  have reversed : (∀ c ∈ front.reverse, isCaseIgnorable c = true) ↔
      ∀ c ∈ front, isCaseIgnorable c = true := by simp
  rw [IsFinal, IsFinal, List.reverse_append]
  by_cases opening : ∀ c ∈ front, isCaseIgnorable c = true
  · have met : meetsCased back = true :=
      eq_true_of_ne_false fun last => sheltered (.opening front back here opening last)
    simp [met, meetsCased_append_of_met met]
  · rw [meetsCased_append (reversed.not.mpr opening)]
    by_cases closing : ∀ c ∈ back, isCaseIgnorable c = true
    · have unmet : meetsCased front.reverse = false :=
        eq_false_of_ne_true fun follows =>
          sheltered (.closing front back here follows closing)
      simp [unmet]
    · rw [meetsCased_append closing]

theorem lower_letter (before after : List Char) : lowerWithin before ['a'] after = ['a'] := by
  rw [lowerWithin, lowerWithin, lowerAt, if_neg (by decide), if_neg (by decide)]
  decide

theorem meetsCased_letter : meetsCased ['a'] = true := by decide +kernel

/-- Beside some letter an exposed sigma has another form, and the text is not found. -/
theorem exists_hidden_of_exposed {text : List Char} (exposed : Exposed text) :
    ∃ before after, ¬ lower text <:+: lower (before ++ text ++ after) := by
  cases exposed with
  | opening front back here ignored last =>
      refine ⟨['a'], [], fun found => ?_⟩
      have kept : ∀ front back, text = front ++ 'Σ' :: back →
          sigmaForm (['a'] ++ front) (back ++ []) = 'σ' → sigmaForm front back = 'σ' := by
        intro front back _
        rw [sigmaForm_eq_open_iff, sigmaForm_eq_open_iff, IsFinal, IsFinal, List.reverse_append,
          List.append_nil]
        exact mt (And.imp_left (meetsCased_append_of_met · _))
      have keeps := keepsForms_of_infix (.inr rfl) kept
        (by rw [lower_part, lower_letter]; simp [lowerWithin]) found front back here
      have skipped : meetsCased (front.reverse ++ ['a']) = meetsCased ['a'] :=
        meetsCased_skip (by simpa using ignored) _
      have unmet : meetsCased front.reverse = false :=
        meetsCased_of_ignorable (by simpa using ignored)
      simp [IsFinal, skipped, meetsCased_letter, unmet, last] at keeps
  | closing front back here follows ignored =>
      refine ⟨[], ['a'], fun found => ?_⟩
      have kept : ∀ front back, text = front ++ 'Σ' :: back →
          sigmaForm ([] ++ front) (back ++ ['a']) = 'ς' → sigmaForm front back = 'ς' := by
        intro front back _
        rw [sigmaForm_eq_final_iff, sigmaForm_eq_final_iff, IsFinal, IsFinal, List.nil_append]
        refine And.imp_right fun unmet => eq_false_of_ne_true fun met => ?_
        rw [meetsCased_append_of_met met] at unmet
        cases unmet
      have keeps := keepsForms_of_infix (.inl rfl) kept
        (by rw [lower_part, lower_letter]; simp [lowerWithin]) found front back here
      have skipped : meetsCased (back ++ ['a']) = meetsCased ['a'] := meetsCased_skip ignored _
      have unmet : meetsCased back = false := meetsCased_of_ignorable ignored
      simp [IsFinal, skipped, meetsCased_letter, unmet, follows] at keeps

end NextOffer.Text
