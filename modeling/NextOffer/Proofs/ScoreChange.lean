import NextOffer.Proofs.Condition.Agreement
import NextOffer.Proofs.Number
import NextOffer.Proofs.ProfileDiff

/-! # Which changes are told

A score is listed as changed when the difference of its two values is not zero. For two
integers and for two finite floating point values this tells exactly whether they differ. It
does not for an infinity that stays, whose difference to itself is a NaN, nor for an integer
and a floating point value that rounding brings together or that cannot be subtracted.
-/

namespace NextOffer

namespace Binary64

/-- Two finite values that differ have a difference, as small as it may be. -/
theorem isZero_sub_iff (x y : Binary64) :
    (x.sub y).isZero = true ↔ x.isFinite = true ∧ x.place? = y.place? := by
  cases x with
  | nan => simp [sub, add, isZero, isFinite]
  | infinity negative =>
      cases y with
      | nan | finite => simp [sub, add, neg, isZero, isFinite]
      | infinity negative' =>
          simp only [sub, neg, add, isFinite]
          split <;> simp [isZero]
  | finite negative quanta exact =>
      cases y with
      | nan => simp [sub, add, neg, isZero, place?]
      | infinity negative' => cases negative' <;> simp [sub, add, neg, isZero, place?]
      | finite negative' quanta' exact' =>
          have opposite : signed (!negative') quanta' = -signed negative' quanta' := by
            cases negative' <;> simp [signed]
          simp only [sub, neg, add, isZero_ofQuanta_iff, opposite, isFinite, place?,
            Option.some.injEq, Place.at.injEq, true_and]
          omega

theorem isFinite_of_place {x y : Binary64} (together : x.place? = y.place?) :
    x.isFinite = y.isFinite := by
  cases x <;> cases y <;> simp_all [place?, isFinite] <;> split at together <;> cases together

end Binary64

namespace Number

variable {x y : Number} {a b : Binary64}

def isFinite : Number → Bool
  | .int _ => true
  | .real value => value.isFinite

/-- Numbers that have no difference, or one that is zero although they differ, or not zero
    although they do not. -/
inductive Untold : Number → Number → Prop where
  | clash {first second : Number} (clash : Clash first second) : Untold first second
  | infinity (negative : Bool) : Untold (.real (.infinity negative)) (.real (.infinity negative))
  | blurred {first second : Number} (inexact : ¬ (first.IsWhole ∧ second.IsWhole))
      (blurred : Blurred first second) : Untold first second

theorem sub_eq_ok (inexact : ¬ (x.IsWhole ∧ y.IsWhole)) (left : x.toBinary64? = .ok a)
    (right : y.toBinary64? = .ok b) : x.sub y = .ok (.real (a.sub b)) := by
  have converted : x.sub y = x.toBinary64? >>= fun a => y.toBinary64? >>= fun b =>
      .ok (.real (a.sub b)) := by
    cases x with
    | real => rfl
    | int n =>
        cases y with
        | real => rfl
        | int m => exact absurd ⟨isWhole_int n, isWhole_int m⟩ inexact
  rw [converted, left, right]
  rfl

/-- The difference tells whether two numbers differ. -/
def Told (x y : Number) : Prop :=
  ∃ delta, y.sub x = .ok delta ∧ (delta.isZero = true ↔ x.same y = true)

theorem told_int (n m : Int) : Told (.int n) (.int m) := by
  refine ⟨.int (m - n), rfl, ?_⟩
  rw [same_iff rfl, place?_int_injective.eq_iff]
  simp only [isZero, beq_iff_eq]
  omega

theorem eq_real_of_not_isFinite (converted : x.toBinary64? = .ok a)
    (infinite : a.isFinite = false) : x = .real a := by
  cases x with
  | real value => exact congrArg real (Except.ok.inj converted)
  | int n =>
      rw [Binary64.isFinite_of_ofInt? converted] at infinite
      cases infinite

theorem told_converted_iff (placed : x.place?.isSome) (inexact : ¬ (x.IsWhole ∧ y.IsWhole))
    (left : x.toBinary64? = .ok a) (right : y.toBinary64? = .ok b) :
    Told x y ↔ ¬ Blurred x y ∧ (x.same y = true → a.isFinite = true) := by
  have difference : y.sub x = .ok (.real (b.sub a)) :=
    sub_eq_ok (fun whole => inexact whole.symm) right left
  have together : (real a).same (.real b) = true ↔ a.place? = b.place? :=
    same_iff (placed_of_toBinary64? placed left)
  have zero : (real (b.sub a)).isZero = true ↔ a.isFinite = true ∧ a.place? = b.place? := by
    refine (Binary64.isZero_sub_iff b a).trans ⟨?_, ?_⟩ <;>
      exact fun ⟨finite, place⟩ => ⟨Binary64.isFinite_of_place place ▸ finite, place.symm⟩
  have blurred : Blurred x y ↔ x.same y = false ∧ a.place? = b.place? := by
    simp only [Blurred, left, right, Except.ok.injEq, exists_and_left, exists_eq_left', together]
  have kept : x.same y = true → a.place? = b.place? :=
    fun same => together.mp (same_toBinary64? placed same left right)
  simp only [Told, difference, Except.ok.injEq, exists_eq_left', zero, blurred]
  constructor
  · intro told
    refine ⟨?_, fun same => (told.mpr same).1⟩
    rintro ⟨apart, place⟩
    -- What is not finite was not rounded, so that it has the places that it is compared by.
    cases finite : a.isFinite with
    | true => exact Bool.false_ne_true (apart.symm.trans (told.mp ⟨finite, place⟩))
    | false =>
        obtain rfl := eq_real_of_not_isFinite left finite
        obtain rfl := eq_real_of_not_isFinite right (Binary64.isFinite_of_place place ▸ finite)
        exact Bool.false_ne_true (apart.symm.trans (together.mpr place))
  · rintro ⟨clear, finite⟩
    refine ⟨fun zero => ?_, fun same => ⟨finite same, kept same⟩⟩
    by_contra apart
    exact clear ⟨Bool.eq_false_of_not_eq_true apart, zero.2⟩

theorem clash_iff : Clash x y ↔ ¬ (x.IsWhole ∧ y.IsWhole) ∧ (x.Oversized ∨ y.Oversized) := by
  cases x <;> cases y <;> simp [Clash, IsWhole, Oversized]

theorem Clash.symm (clash : x.Clash y) : y.Clash x := by
  cases x <;> cases y <;> exact clash

theorem converted_of_not_oversized (room : ¬ x.Oversized) : ∃ a, x.toBinary64? = .ok a := by
  cases converted : x.toBinary64? with
  | ok a => exact ⟨a, rfl⟩
  | error fault => exact absurd (toBinary64?_eq_error_iff.mp converted).2 room

theorem infinity_of_same (placed : x.place?.isSome) (left : x.toBinary64? = .ok a)
    (right : y.toBinary64? = .ok b) (same : x.same y = true) (infinite : a.isFinite = false) :
    ∃ negative, x = .real (.infinity negative) ∧ y = .real (.infinity negative) := by
  obtain rfl := eq_real_of_not_isFinite left infinite
  have place : a.place? = b.place? := place?_eq_of_same (same_toBinary64? placed same left right)
  obtain rfl := eq_real_of_not_isFinite right (Binary64.isFinite_of_place place ▸ infinite)
  have nonzero : a.isZero = false := by
    cases a <;> first | rfl | cases infinite
  obtain rfl := Binary64.eq_of_place? nonzero placed place
  cases a with
  | nan => cases placed
  | infinity negative => exact ⟨negative, rfl, rfl⟩
  | finite => cases infinite

/-- The difference tells whether two numbers differ, except in three cases. -/
theorem told_iff (placed : x.place?.isSome) : Told x y ↔ ¬ Untold x y := by
  by_cases whole : x.IsWhole ∧ y.IsWhole
  · obtain ⟨⟨n, rfl⟩, m, rfl⟩ := whole
    refine ⟨fun _ untold => ?_, fun _ => told_int n m⟩
    cases untold with
    | clash clash => exact clash
    | blurred inexact => exact inexact ⟨isWhole_int n, isWhole_int m⟩
  by_cases clash : x.Clash y
  · refine ⟨?_, fun clear => absurd (.clash clash) clear⟩
    rintro ⟨delta, found, -⟩
    have fails : y.sub x = .error .integerTooLarge :=
      combine_eq_error_iff.mpr ⟨rfl, clash.symm⟩
    rw [fails] at found
    cases found
  · have room : ¬ (x.Oversized ∨ y.Oversized) := fun large => clash (clash_iff.mpr ⟨whole, large⟩)
    obtain ⟨a, left⟩ := converted_of_not_oversized fun large => room (.inl large)
    obtain ⟨b, right⟩ := converted_of_not_oversized fun large => room (.inr large)
    rw [told_converted_iff placed whole left right]
    constructor
    · rintro ⟨clear, finite⟩ untold
      cases untold with
      | clash there => exact clash there
      | infinity negative =>
          cases left
          cases finite ((same_iff placed).mpr rfl)
      | blurred _ blurred => exact clear blurred
    · intro clear
      refine ⟨fun blurred => clear (.blurred whole blurred), fun same => ?_⟩
      by_contra infinite
      obtain ⟨negative, rfl, rfl⟩ :=
        infinity_of_same placed left right same (Bool.eq_false_of_not_eq_true infinite)
      exact clear (.infinity negative)

theorem sub_self_returns (x : Number) :
    ∃ delta, x.sub x = .ok delta ∧ (delta.isZero = true ↔ x.isFinite = true) := by
  cases x with
  | int n => exact ⟨.int (n - n), rfl, by simp [isZero, isFinite]⟩
  | real value =>
      refine ⟨.real (value.sub value), rfl, ?_⟩
      simp [isZero, isFinite, Binary64.isZero_sub_iff]

end Number

namespace ScoreChange

/-- The difference of a score has a result, and says whether the score changed. -/
def Tells (before after : Profile) (name : String) : Prop :=
  ∃ change, of before after name = .ok change ∧
    (change.changed = true ↔ (before.score name).same (after.score name) = false)

theorem tells_iff_told (before after : Profile) (name : String) :
    Tells before after name ↔ Number.Told (before.score name) (after.score name) := by
  have told : ∀ delta : Number, (⟨name, before.score name, after.score name, delta⟩ :
      ScoreChange).changed = true ↔ ¬ delta.isZero = true := by
    simp [changed]
  constructor
  · rintro ⟨change, found, tells⟩
    obtain ⟨delta, difference, same⟩ := Outcome.bind_eq_ok_iff.mp found
    obtain rfl := Except.ok.inj same
    rw [told, ← Bool.not_eq_true, not_iff_not] at tells
    exact ⟨delta, difference, tells⟩
  · rintro ⟨delta, difference, tells⟩
    refine ⟨_, Outcome.bind_eq_ok_iff.mpr ⟨delta, difference, rfl⟩, ?_⟩
    rw [told, ← Bool.not_eq_true, not_iff_not]
    exact tells

theorem of_self (profile : Profile) (name : String) :
    ∃ change, of profile profile name = .ok change ∧
      (change.changed = false ↔ (profile.score name).isFinite = true) := by
  obtain ⟨delta, difference, zero⟩ := Number.sub_self_returns (profile.score name)
  refine ⟨_, Outcome.bind_eq_ok_iff.mpr ⟨delta, difference, rfl⟩, ?_⟩
  simpa [changed] using zero

end ScoreChange

namespace ProfileDiff

/-- What a difference tells of scores. -/
structure TellsChanges (before after : Profile) : Prop where
  /-- Whether a score changed is told, unless the two values are such that it is not. -/
  score : ∀ name, (before.score name).place?.isSome →
    (ScoreChange.Tells before after name ↔
      ¬ Number.Untold (before.score name) (after.score name))
  /-- A profile has no difference to itself as long as its scores are finite. -/
  self : ∃ diff, of before before = .ok diff ∧
    (diff.isEmpty = true ↔ ∀ name ∈ before.scores.names, (before.score name).isFinite = true)

theorem changed_nil_iff {profile : Profile} {names : List String} {changes : List ScoreChange}
    (lined : List.Forall₂ (fun name change => ScoreChange.of profile profile name = .ok change)
      names changes) :
    changes.filter ScoreChange.changed = [] ↔
      ∀ name ∈ names, (profile.score name).isFinite = true := by
  induction lined with
  | nil => simp
  | @cons name change _ _ first _ ih =>
      obtain ⟨_, again, unchanged⟩ := ScoreChange.of_self profile name
      obtain rfl := Except.ok.inj (first.symm.trans again)
      rw [List.forall_mem_cons, ← unchanged, ← ih]
      cases told : change.changed <;> simp [told]

theorem of_self (profile : Profile) : ∃ diff, of profile profile = .ok diff ∧
    (diff.isEmpty = true ↔
      ∀ name ∈ profile.scores.names, (profile.score name).isFinite = true) := by
  obtain ⟨changes, found⟩ : ∃ changes,
      (scoreNames profile profile).mapM (ScoreChange.of profile profile) = .ok changes := by
    refine Outcome.mapM_returns_iff.mpr fun name _ => ?_
    obtain ⟨change, found, -⟩ := ScoreChange.of_self profile name
    exact ⟨change, found⟩
  refine ⟨_, by rw [of, found]; rfl, ?_⟩
  simp only [isEmpty, changedScores, Bool.and_not_self, List.filter_false, List.isEmpty_nil,
    Bool.and_true, List.isEmpty_iff, changed_nil_iff (Outcome.mapM_eq_ok_iff.mp found)]
  simp [scoreNames]

theorem of_tells_changes (before after : Profile) : TellsChanges before after where
  score name placed :=
    (ScoreChange.tells_iff_told before after name).trans (Number.told_iff placed)
  self := of_self before

def lucky : Profile := { customerId := "C1", scores := [("luck", .real (.infinity false))] }

/-- An infinite score differs from itself. -/
theorem lucky_changes :
    (lucky.score "luck").place?.isSome ∧ (lucky.score "luck").same (lucky.score "luck") = true ∧
      (∃ change, ScoreChange.of lucky lucky "luck" = .ok change ∧ change.changed = true) ∧
      ∃ diff, of lucky lucky = .ok diff ∧ diff.isEmpty = false :=
  ⟨rfl, rfl, ⟨_, rfl, rfl⟩, _, rfl, rfl⟩

end ProfileDiff

end NextOffer
