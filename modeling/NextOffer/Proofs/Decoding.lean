import NextOffer.Proofs.Number.Text
import NextOffer.Proofs.Preview
import NextOffer.Proofs.Ranking.Scoring

/-! # Numbers are found again in texts

The text of a number tells its value. In the description of a change of a score the texts of
three numbers follow the name of the score, each behind a blank. The name may have blanks of its
own, but a number has none: cutting the description at its last blanks finds the numbers one
after another, from the right, and leaves the name. A number with too many digits has no text, and
what would tell it fails.
-/

namespace NextOffer

/-! ## Texts of numbers -/

namespace Number

variable {x y : Number}

theorem placed_of_ne_nan (number : x ≠ .real .nan) : x.place?.isSome := by
  rw [Option.isSome_iff_ne_none]
  cases x with
  | int n => exact Option.some_ne_none _
  | real value => exact fun nowhere => number (congrArg real (place?_real_eq_none_iff.mp nowhere))

theorem plainText_eq_iff (placed : x.place?.isSome) :
    x.plainText = y.plainText ↔ x.same y = true := by
  rw [plainText, plainText, String.ofList_inj, plainChars_eq_iff placed]

theorem plain_eq_iff {text text' : String} (placed : x.place?.isSome) (told : x.plain = .ok text)
    (told' : y.plain = .ok text') : text = text' ↔ x.same y = true := by
  rw [(plain_eq_ok_iff.mp told).2, (plain_eq_ok_iff.mp told').2, plainText_eq_iff placed]

theorem blank_not_mem_plainChars (x : Number) : ' ' ∉ x.plainChars := by
  intro member
  have numeral := isNumeral_of_mem_plainChars member
  simp [isNumeral] at numeral

theorem head?_chars_ne_plus (x : Number) : x.chars.head? ≠ some '+' := by
  have signed (negative : Bool) {text : List Char} (begins : Binary64.BeginsWithDigit text) :
      ((if negative then ['-'] else []) ++ text).head? ≠ some '+' := by
    cases negative with
    | true => simp
    | false => exact begins.head?_ne rfl
  cases x with
  | int n =>
      rw [chars, signedDigits_eq]
      simpa using signed (decide (n < 0)) (toDigits_eq_cons n.natAbs)
  | real value =>
      cases value with
      | nan => decide
      | infinity negative => cases negative <;> decide
      | finite negative quanta exact =>
          obtain ⟨whole, fraction, exponent, text, shape, spelled, nonempty, digits, -⟩ :=
            Binary64.exists_parts negative exact
          have begins : Binary64.BeginsWithDigit text := by
            cases spelled with
            | plain => exact Binary64.beginsWithDigit_append nonempty digits _
            | scaled =>
                rw [List.append_assoc]
                exact Binary64.beginsWithDigit_append nonempty digits _
          rw [chars, shape]
          exact signed negative begins

theorem head?_plainChars_ne_plus (x : Number) : x.plainChars.head? ≠ some '+' := by
  rw [plainChars_eq]
  exact head?_chars_ne_plus _

end Number

namespace Effect

variable {x y : Number}

/-- A change behind its sign. -/
def signedChars (x : Number) : List Char := (plusSign x).toList ++ x.plainChars

theorem toList_plusSign (x : Number) :
    (plusSign x).toList = if Number.le 0 x then ['+'] else [] := by
  rw [plusSign]
  split <;> rfl

theorem blank_not_mem_signedChars (x : Number) : ' ' ∉ signedChars x := by
  rw [signedChars, toList_plusSign, List.mem_append, not_or]
  refine ⟨?_, x.blank_not_mem_plainChars⟩
  split <;> simp

theorem signedChars_eq_iff (placed : x.place?.isSome) :
    signedChars x = signedChars y ↔ x.same y = true := by
  rw [← Number.plainChars_eq_iff placed, signedChars, signedChars, toList_plusSign,
    toList_plusSign]
  constructor
  · intro same
    have noPlus (z : Number) (rest : List Char) : z.plainChars ≠ '+' :: rest :=
      fun plus => z.head?_plainChars_ne_plus (congrArg List.head? plus)
    cases up : Number.le 0 x <;> cases up' : Number.le 0 y <;>
      simp only [up, up', Bool.false_eq_true, if_true, if_false, List.nil_append,
        List.singleton_append] at same
    · exact same
    · exact absurd same (noPlus x _)
    · exact absurd same.symm (noPlus y _)
    · exact List.tail_eq_of_cons_eq same
  · intro same
    have place := Number.place?_eq_of_same ((Number.plainChars_eq_iff placed).mp same)
    have sign : Number.le 0 x = Number.le 0 y := by rw [Number.le, Number.le, place]
    rw [sign, same]

end Effect

/-! ## Descriptions -/

/-- A text is cut at its last blank in one way only. -/
theorem Text.cut_at_last {α : Type} {mark : α} {front front' back back' : List α}
    (last : mark ∉ back) (last' : mark ∉ back')
    (same : front ++ mark :: back = front' ++ mark :: back') : front = front' ∧ back = back' := by
  rcases List.append_eq_append_iff.mp same with ⟨middle, rfl, rest⟩ | ⟨middle, rfl, rest⟩
  all_goals
    cases middle with
    | nil => simp_all
    | cons first middle =>
        obtain ⟨-, rfl⟩ := List.cons.inj rest
        simp_all

/-- A change of a score as it is told: with the value that was found and the value that was
    left. -/
structure ToldChange where
  name : String
  delta : Number
  old : Number
  new : Number

namespace ToldChange

variable {change change' : ToldChange}

def effect (change : ToldChange) : Effect := .scoreDelta (some change.name) (some change.delta)

/-- Applying the effect to some profile makes the change, and this is its description. -/
def Tells (change : ToldChange) (description : String) : Prop :=
  ∃ profile applied, change.name ≠ "" ∧ change.effect.apply profile = .ok applied ∧
    profile.score change.name = change.old ∧
    applied.profile.scores.get? change.name = some change.new ∧
    applied.description = description

/-- Neither the change nor a value is a NaN. -/
structure IsNumeric (change : ToldChange) : Prop where
  delta : change.delta ≠ .real .nan
  old : change.old ≠ .real .nan
  new : change.new ≠ .real .nan

/-- The changes are of one score, and each of their numbers has one value. -/
structure Agrees (change change' : ToldChange) : Prop where
  name : change.name = change'.name
  delta : change.delta.same change'.delta = true
  old : change.old.same change'.old = true
  new : change.new.same change'.new = true

/-- All numbers of the change have texts. -/
structure IsWritable (change : ToldChange) : Prop where
  delta : ∃ text, change.delta.plain = .ok text
  old : ∃ text, change.old.plain = .ok text
  new : ∃ text, change.new.plain = .ok text

def text (change : ToldChange) : String :=
  Effect.changeSpelling change.name change.delta change.old change.new

theorem isWritable_iff : change.IsWritable ↔
    ∃ text, Effect.changeText change.name change.delta change.old change.new = .ok text := by
  simp only [Effect.changeText_eq_ok_iff, exists_and_left, exists_eq, and_true]
  constructor
  · rintro ⟨⟨_, delta⟩, ⟨_, old⟩, _, new⟩
    exact ⟨(Number.plain_eq_ok_iff.mp delta).1, (Number.plain_eq_ok_iff.mp old).1,
      (Number.plain_eq_ok_iff.mp new).1⟩
  · rintro ⟨delta, old, new⟩
    exact ⟨⟨_, Number.plain_of_isWritable delta⟩, ⟨_, Number.plain_of_isWritable old⟩,
      ⟨_, Number.plain_of_isWritable new⟩⟩

theorem Tells.eq_text {description : String} (tells : change.Tells description) :
    description = change.text := by
  obtain ⟨profile, applied, named, done, found, left, rfl⟩ := tells
  have complete : change.effect.scoreChange? = some (change.name, change.delta) := if_neg named
  obtain ⟨value, text, -, told, rfl⟩ := (Effect.apply_eq_ok_iff_of_scoreChange? complete).mp done
  rw [Fields.get?_set, if_pos rfl] at left
  obtain rfl := Option.some.inj left
  rw [found] at told
  exact (Effect.changeText_eq_ok_iff.mp told).2

theorem exists_tells_iff {profile : Profile} (named : change.name ≠ "")
    (found : profile.score change.name = change.old)
    (sum : change.old.add change.delta = .ok change.new) :
    (∃ applied, change.effect.apply profile = .ok applied ∧ change.Tells applied.description) ↔
      change.IsWritable := by
  have complete : change.effect.scoreChange? = some (change.name, change.delta) := if_neg named
  rw [isWritable_iff]
  constructor
  · rintro ⟨applied, done, -⟩
    obtain ⟨value, text, added, told, -⟩ :=
      (Effect.apply_eq_ok_iff_of_scoreChange? complete).mp done
    rw [found] at added told
    obtain rfl := Except.ok.inj (sum.symm.trans added)
    exact ⟨text, told⟩
  · rintro ⟨text, told⟩
    have done : change.effect.apply profile =
        .ok ⟨{ profile with scores := profile.scores.set change.name change.new }, text⟩ :=
      (Effect.apply_eq_ok_iff_of_scoreChange? complete).mpr
        ⟨change.new, text, found ▸ sum, found ▸ told, rfl⟩
    refine ⟨_, done, profile, _, named, done, found, ?_, rfl⟩
    simp [Fields.get?_set]

theorem toList_text (change : ToldChange) :
    change.text.toList = (((change.name.toList ++ ' ' :: Effect.signedChars change.delta) ++
      ' ' :: '(' :: change.old.plainChars) ++ ' ' :: ['→']) ++
      ' ' :: (change.new.plainChars ++ [')']) := by
  simp [text, Effect.changeSpelling, Effect.signedChars, Number.plainText, toString]

/-- A description is decoded from its end. -/
theorem text_eq_iff (numeric : change.IsNumeric) :
    change.text = change'.text ↔ change.Agrees change' := by
  have blankless (x : Number) : ' ' ∉ '(' :: x.plainChars ∧ ' ' ∉ x.plainChars ++ [')'] := by
    simp [x.blank_not_mem_plainChars]
  have delta := @Effect.signedChars_eq_iff _ change'.delta (Number.placed_of_ne_nan numeric.delta)
  have old := @Number.plainChars_eq_iff _ change'.old (Number.placed_of_ne_nan numeric.old)
  have new := @Number.plainChars_eq_iff _ change'.new (Number.placed_of_ne_nan numeric.new)
  rw [← String.toList_inj, toList_text, toList_text]
  constructor
  · intro same
    obtain ⟨same, last⟩ := Text.cut_at_last (blankless _).2 (blankless _).2 same
    obtain ⟨same, -⟩ := Text.cut_at_last (by decide) (by decide) same
    obtain ⟨same, second⟩ := Text.cut_at_last (blankless _).1 (blankless _).1 same
    obtain ⟨front, first⟩ := Text.cut_at_last (Effect.blank_not_mem_signedChars _)
      (Effect.blank_not_mem_signedChars _) same
    exact {
      name := String.toList_inj.mp front
      delta := delta.mp first
      old := old.mp (List.cons.inj second).2
      new := new.mp (List.append_cancel_right last) }
  · intro agrees
    rw [agrees.name, delta.mpr agrees.delta, old.mpr agrees.old, new.mpr agrees.new]

end ToldChange

/-! ## What texts tell -/

/-- The texts of two numbers, of two changes and of what a product requires of a profile tell the
    numbers that they show. -/
structure TextsTellNumbers (x y : Number) (change change' : ToldChange) (product : Product)
    (profile : Profile) : Prop where
  /-- All numbers have texts but integers with too many digits. -/
  written : (∃ text, x.plain = .ok text) ↔ ∀ n, x = .int n → n.natAbs < Nat.pow 10 digitLimit
  /-- A number other than a NaN reads like another exactly when they have one value. -/
  numbers : ∀ text text', x ≠ .real .nan → x.plain = .ok text → y.plain = .ok text' →
    (text = text' ↔ x.same y = true)
  /-- A change of a score that adds up is told exactly when all its numbers have texts, -/
  told : change.name ≠ "" → profile.score change.name = change.old →
    change.old.add change.delta = .ok change.new →
    ((∃ applied, change.effect.apply profile = .ok applied ∧ change.Tells applied.description) ↔
      change.IsWritable)
  /-- and nothing else is said when the effect of a change is applied; -/
  described : ∀ (score? : Option String) (delta? : Option Number) (applied : Applied),
    (Effect.scoreDelta score? delta?).apply profile = .ok applied → applied.description ≠ "" →
    ∃ change : ToldChange, change.Tells applied.description ∧
      score? = some change.name ∧ delta? = some change.delta ∧
      change.old = profile.score change.name ∧
      applied.profile.scores.get? change.name = some change.new
  /-- a change without NaNs has the description of another exactly when they are of one score and
      their numbers have the same values, whatever characters the name of the score has. -/
  changes : ∀ description description', change.Tells description → change'.Tells description' →
    change.IsNumeric → (description = description' ↔ change.Agrees change')
  /-- A score that is too low is not shown like the score that is required. -/
  failures : ∀ check ∈ product.checks profile, check.threshold ≠ .real .nan →
    check.met = false → ∀ line, check.line = .ok line →
    ∃ observed threshold, check.observed.plain = .ok observed ∧
      check.threshold.plain = .ok threshold ∧
      line = s!"✗ {check.name}: {observed} < {threshold} required" ∧ observed ≠ threshold

theorem Effect.exists_toldChange {score? : Option String} {delta? : Option Number}
    {profile : Profile} {applied : Applied}
    (done : (scoreDelta score? delta?).apply profile = .ok applied)
    (told : applied.description ≠ "") : ∃ change : ToldChange,
      change.Tells applied.description ∧ score? = some change.name ∧
      delta? = some change.delta ∧ change.old = profile.score change.name ∧
      applied.profile.scores.get? change.name = some change.new := by
  have complete : (scoreDelta score? delta?).isComplete = true := by
    by_contra incomplete
    rw [Bool.not_eq_true] at incomplete
    rw [apply_of_incomplete incomplete] at done
    cases done
    exact told rfl
  cases score? with
  | none => cases complete
  | some name =>
      cases delta? with
      | none => cases complete
      | some delta =>
          have named : name ≠ "" := by simpa [isComplete] using complete
          have change : (scoreDelta (some name) (some delta)).scoreChange? = some (name, delta) :=
            if_neg named
          obtain ⟨_, _, value, _, -, -, stored, -⟩ := description_of_scoreChange? change done
          exact ⟨⟨name, delta, profile.score name, value⟩,
            ⟨profile, applied, named, done, rfl, stored, rfl⟩, rfl, rfl, rfl, stored⟩

theorem Check.exists_texts_of_line {check : Check} (threshold : check.threshold ≠ .real .nan)
    (low : check.met = false) {line : String} (told : check.line = .ok line) :
    ∃ observed threshold, check.observed.plain = .ok observed ∧
      check.threshold.plain = .ok threshold ∧
      line = s!"✗ {check.name}: {observed} < {threshold} required" ∧ observed ≠ threshold := by
  obtain ⟨⟨observed, required⟩, rfl⟩ := line_eq_ok_iff.mp told
  refine ⟨_, _, Number.plain_of_isWritable observed, Number.plain_of_isWritable required, ?_, ?_⟩
  · rw [spelling, if_neg (by simp [low])]
  · intro alike
    have same := (Number.plainText_eq_iff (Number.placed_of_ne_nan threshold)).mp alike.symm
    have reached : check.met = true := (Bool.and_eq_true_iff.mp same).1
    rw [low] at reached
    cases reached

theorem Number.plain_returns_iff {x : Number} :
    (∃ text, x.plain = .ok text) ↔ ∀ n, x = .int n → n.natAbs < Nat.pow 10 digitLimit := by
  cases x with
  | int n => simp [plain_eq_ok_iff, isWritable_int_iff]
  | real value => simp [plain_eq_ok_iff]

/-- No text shows two numbers alike that differ. -/
theorem textsTellNumbers (x y : Number) (change change' : ToldChange) (product : Product)
    (profile : Profile) : TextsTellNumbers x y change change' product profile where
  written := Number.plain_returns_iff
  numbers _ _ number told told' :=
    Number.plain_eq_iff (Number.placed_of_ne_nan number) told told'
  told named found sum := ToldChange.exists_tells_iff named found sum
  described _ _ _ done told := Effect.exists_toldChange done told
  changes _ _ tells tells' numeric := by
    rw [tells.eq_text, tells'.eq_text, ToldChange.text_eq_iff numeric]
  failures _ _ threshold low _ told := Check.exists_texts_of_line threshold low told

namespace TextsTellNumbers

/-- A score whose name looks like a description. -/
def risk : ToldChange := ⟨"risk +5 (0 → 5)", .int (-2), .int 62, .int 60⟩

/-- The same change in floating point values. -/
def pointedRisk : ToldChange :=
  ⟨"risk +5 (0 → 5)", .real (Binary64.ofInt (-2)), .real (Binary64.ofInt 62),
    .real (Binary64.ofInt 60)⟩

def firstRisk : ToldChange := ⟨"risk", .int 5, .int 0, .int 5⟩

/-- A profile in which the change finds its value. -/
def holder (change : ToldChange) : Profile :=
  { customerId := "C1", scores := [(change.name, change.old)] }

/-- A product that asks for a little more than there is. -/
def loan : Product := { id := "loan", name := "Loan", requiredScores := [("risk", .int 60)] }

def seeker : Profile where
  customerId := "C1"
  scores := [("risk", .real (Binary64.ofDecimal false ⟨599999999, -7⟩))]

theorem isWritable_risks :
    risk.IsWritable ∧ pointedRisk.IsWritable ∧ firstRisk.IsWritable := by
  have written : ∀ change ∈ [risk, pointedRisk, firstRisk],
      ∀ x ∈ [change.delta, change.old, change.new], x.isWritable = true := by
    decide +kernel
  have texts : ∀ change ∈ [risk, pointedRisk, firstRisk], change.IsWritable :=
    fun change member =>
      { delta := ⟨_, Number.plain_of_isWritable (written change member _ (by simp))⟩
        old := ⟨_, Number.plain_of_isWritable (written change member _ (by simp))⟩
        new := ⟨_, Number.plain_of_isWritable (written change member _ (by simp))⟩ }
  exact ⟨texts _ (by simp), texts _ (by simp), texts _ (by simp)⟩

/-- Descriptions tell values and not kinds of numbers, and the name of a score cannot pretend to
    be another change. -/
theorem textsTellNumbers_risk :
    (risk.old.plain = .ok "62" ∧ pointedRisk.old.plain = .ok "62") ∧
      (risk.Tells "risk +5 (0 → 5) -2 (62 → 60)" ∧
        pointedRisk.Tells "risk +5 (0 → 5) -2 (62 → 60)" ∧
        ¬ firstRisk.Tells "risk +5 (0 → 5) -2 (62 → 60)") ∧
      ∃ check ∈ loan.checks seeker,
        check.line = .ok "✗ risk: 59.9999999 < 60 required" ∧
        check.observed.plain ≠ check.threshold.plain := by
  obtain ⟨written, pointedWritten, -⟩ := isWritable_risks
  have whole := textsTellNumbers risk.old pointedRisk.old risk pointedRisk loan (holder risk)
  have mixed := textsTellNumbers pointedRisk.old risk.old pointedRisk risk loan
    (holder pointedRisk)
  have other := textsTellNumbers risk.old firstRisk.old risk firstRisk loan seeker
  obtain ⟨_, -, tells⟩ := (whole.told (by decide) (by decide +kernel) (by decide +kernel)).mpr
    written
  obtain ⟨_, -, pointed⟩ := (mixed.told (by decide) (by decide +kernel) (by decide +kernel)).mpr
    pointedWritten
  have text : risk.text = "risk +5 (0 → 5) -2 (62 → 60)" := by decide +kernel
  have numeric : risk.IsNumeric := ⟨by decide, by decide, by decide⟩
  rw [tells.eq_text, text] at tells
  have alike := (whole.changes _ _ tells pointed numeric).mpr
    ⟨rfl, by decide +kernel, by decide +kernel, by decide +kernel⟩
  have apart : ¬ firstRisk.Tells "risk +5 (0 → 5) -2 (62 → 60)" := fun first =>
    absurd ((other.changes _ _ tells first numeric).mp rfl).name (by decide)
  have low : (⟨"risk", seeker.score "risk", .int 60⟩ : Check).met = false := by decide +kernel
  have line : (⟨"risk", seeker.score "risk", .int 60⟩ : Check).line =
      .ok "✗ risk: 59.9999999 < 60 required" := by decide +kernel
  obtain ⟨observed, threshold, told, told', -, differ⟩ := other.failures
    ⟨"risk", seeker.score "risk", .int 60⟩ (List.mem_singleton_self _) (by decide) low _ line
  refine ⟨by decide +kernel, ⟨tells, alike ▸ pointed, apart⟩, _, List.mem_singleton_self _, line,
    ?_⟩
  rw [told, told']
  exact fun same => differ (Except.ok.inj same)

/-- One point more than the largest integer that has a text. -/
def overflow : ToldChange :=
  ⟨"points", .int 1, .int (Nat.pow 10 digitLimit - 1), .int (Nat.pow 10 digitLimit)⟩

/-- The change adds up, but what it adds up to has no text, and so it is never told. -/
theorem not_told_overflow :
    overflow.name ≠ "" ∧ (holder overflow).score overflow.name = overflow.old ∧
    overflow.old.add overflow.delta = .ok overflow.new ∧
    (∃ text, overflow.old.plain = .ok text) ∧ (∃ text, overflow.delta.plain = .ok text) ∧
    overflow.new.plain = .error .tooManyDigits ∧
    overflow.effect.apply (holder overflow) = .error .tooManyDigits := by
  have few := Number.digit_lt_limit (show 2 < 10 by decide)
  have found : (holder overflow).score overflow.name = overflow.old := by
    have entry : (holder overflow).scores.get? overflow.name = some overflow.old := rfl
    have positive : (Nat.pow 10 digitLimit - 1 : Int) ≠ 0 := by omega
    have nonzero : overflow.old.isZero = false := beq_eq_false_iff_ne.mpr positive
    simp only [Profile.score, entry, nonzero, Bool.false_eq_true, if_false]
  have sum : overflow.old.add overflow.delta = .ok overflow.new := by
    have total : (Nat.pow 10 digitLimit - 1 + 1 : Int) = Nat.pow 10 digitLimit := by omega
    exact congrArg (Except.ok ∘ Number.int) total
  have old : overflow.old.isWritable = true := Number.isWritable_int_iff.mpr (by omega)
  have delta : overflow.delta.isWritable = true := Number.isWritable_int_iff.mpr (by omega)
  have new : overflow.new.isWritable = false := by
    rw [← Bool.not_eq_true]
    exact Number.isWritable_int_iff.not.mpr (by omega)
  refine ⟨by decide, found, sum, ⟨_, Number.plain_of_isWritable old⟩,
    ⟨_, Number.plain_of_isWritable delta⟩, Number.plain_eq_error_iff.mpr ⟨rfl, new⟩, ?_⟩
  refine Effect.apply_eq_error_iff.mpr (.description (by decide) ?_ (.inr (.inr new)))
  rw [found, sum]

end TextsTellNumbers

end NextOffer
