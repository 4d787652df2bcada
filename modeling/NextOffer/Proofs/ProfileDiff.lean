import NextOffer.ProfileDiff
import NextOffer.Proofs.Evaluation.Points
import NextOffer.Tables

/-! # Differences account for what changed

A difference lines up every score of two profiles once and sorts their tags into three lists
without common members. With the scores of the first profile it gives those of the second, and
the tags that went and those that stayed are the tags of the first, those that came and those
that stayed the tags of the second. A table can be made of it when every difference of a score
exists and can be written.
-/

namespace NextOffer

/-- The third list has the items of the other two, each of them in its order. -/
inductive Interleaves {α : Type u} : List α → List α → List α → Prop where
  | done : Interleaves [] [] []
  | left {item first second whole} (rest : Interleaves first second whole) :
      Interleaves (item :: first) second (item :: whole)
  | right {item first second whole} (rest : Interleaves first second whole) :
      Interleaves first (item :: second) (item :: whole)

theorem interleaves_filter {α : Type u} {left right : α → Bool}
    (either : ∀ item, right item = !left item) (items : List α) :
    Interleaves (items.filter left) (items.filter right) items := by
  induction items with
  | nil => exact .done
  | cons item rest ih =>
      cases chosen : left item with
      | true =>
          rw [List.filter_cons_of_pos chosen, List.filter_cons_of_neg (by simp [either, chosen])]
          exact .left ih
      | false =>
          rw [List.filter_cons_of_neg (by simp [chosen]),
            List.filter_cons_of_pos (by simp [either, chosen])]
          exact .right ih

namespace ProfileDiff

variable {before after : Profile} {diff : ProfileDiff}

/-! ## Tags -/

/-- The tags of a difference, for profiles without repeated tags. -/
structure SortsTags (before after : Profile) (diff : ProfileDiff) : Prop where
  added : diff.added = after.tags.filter fun tag => !before.hasTag tag
  removed : diff.removed = before.tags.filter fun tag => !after.hasTag tag
  unchanged : diff.unchanged = before.tags.filter after.hasTag

theorem sortsTags_of_eq_ok (found : of before after = .ok diff)
    (distinct : before.tags.Nodup) (distinct' : after.tags.Nodup) :
    SortsTags before after diff := by
  obtain ⟨changes, -, same⟩ := Outcome.bind_eq_ok_iff.mp found
  obtain rfl := Except.ok.inj same
  have all : tags before after =
      before.tags ++ after.tags.filter fun tag => !before.hasTag tag :=
    eraseDups_append_of_nodup distinct distinct'
  have old : ∀ tag ∈ before.tags, before.hasTag tag = true := by simp [Profile.hasTag]
  have new : ∀ tag ∈ after.tags.filter (fun tag => !before.hasTag tag),
      before.hasTag tag = false ∧ after.hasTag tag = true := by
    intro tag member
    obtain ⟨present, absent⟩ := List.mem_filter.mp member
    exact ⟨by simpa using absent, by simpa [Profile.hasTag] using present⟩
  -- Each list takes from only one of the two parts.
  have split : ∀ chosen : String → Bool, (tags before after).filter chosen =
      before.tags.filter chosen ++
        (after.tags.filter fun tag => !before.hasTag tag).filter chosen := by
    intro chosen
    rw [all, List.filter_append]
  constructor
  case added =>
      have none : before.tags.filter (fun tag => after.hasTag tag && !before.hasTag tag) = [] :=
        List.filter_eq_nil_iff.mpr fun tag member => by simp [old tag member]
      refine (split _).trans ?_
      rw [none, List.nil_append]
      exact List.filter_eq_self.mpr fun tag member => by simp [new tag member]
  case removed =>
      have none : (after.tags.filter fun tag => !before.hasTag tag).filter
          (fun tag => before.hasTag tag && !after.hasTag tag) = [] :=
        List.filter_eq_nil_iff.mpr fun tag member => by simp [new tag member]
      refine (split _).trans ?_
      rw [none, List.append_nil]
      exact List.filter_congr fun tag member => by simp [old tag member]
  case unchanged =>
      have none : (after.tags.filter fun tag => !before.hasTag tag).filter
          (fun tag => before.hasTag tag && after.hasTag tag) = [] :=
        List.filter_eq_nil_iff.mpr fun tag member => by simp [new tag member]
      refine (split _).trans ?_
      rw [none, List.append_nil]
      exact List.filter_congr fun tag member => by simp [old tag member]

/-! ## Scores -/

/-- The change of a score that is a count of points. -/
def pointsChange (before after : Profile) (name : String) : ScoreChange :=
  ⟨name, .int (before.points name), .int (after.points name),
    .int (after.points name - before.points name)⟩

theorem of_whole (whole : before.HasWholeScores) (whole' : after.HasWholeScores) :
    ∃ diff, of before after = .ok diff ∧
      diff.scores = (scoreNames before after).map (pointsChange before after) ∧
      (∀ tag, tag ∈ diff.added ↔ after.hasTag tag = true ∧ before.hasTag tag = false) ∧
      (∀ tag, tag ∈ diff.removed ↔ before.hasTag tag = true ∧ after.hasTag tag = false) := by
  have scores : (scoreNames before after).mapM (ScoreChange.of before after) =
      .ok ((scoreNames before after).map (pointsChange before after)) := by
    rw [Outcome.mapM_eq_ok_iff, List.forall₂_map_right_iff, List.forall₂_same]
    intro name _
    simp only [ScoreChange.of, whole.score_eq, whole'.score_eq]
    rfl
  have inEither : ∀ tag, tag ∈ tags before after ↔
      before.hasTag tag = true ∨ after.hasTag tag = true := by
    simp [tags, List.mem_eraseDups, Profile.hasTag]
  refine ⟨_, by rw [of, scores]; rfl, rfl, ?_, ?_⟩ <;> intro tag
  · simp only [List.mem_filter, inEither, Bool.and_eq_true, Bool.not_eq_true']
    exact ⟨And.right, fun came => ⟨.inr came.1, came⟩⟩
  · simp only [List.mem_filter, inEither, Bool.and_eq_true, Bool.not_eq_true']
    exact ⟨And.right, fun went => ⟨.inl went.1, went⟩⟩

/-- The change that is listed for a score, 0 if there is none. -/
def deltaOf (diff : ProfileDiff) (name : String) : Number :=
  ((diff.scores.find? fun change => change.name == name).map ScoreChange.delta).getD 0

theorem deltaOf_of_scores {names : List String}
    (scores : diff.scores = names.map (pointsChange before after)) (name : String) :
    diff.deltaOf name =
      if name ∈ names then .int (after.points name - before.points name) else .int 0 := by
  rw [deltaOf, scores, List.find?_map]
  split
  case isTrue listed =>
      obtain ⟨other, found⟩ : ∃ other, names.find? (fun other => other == name) = some other :=
        Option.isSome_iff_exists.mp (List.find?_isSome.mpr ⟨name, listed, by simp⟩)
      obtain rfl : other = name := by simpa using List.find?_some found
      simp [Function.comp_def, pointsChange, found]
  case isFalse unlisted =>
      have absent : names.find? (fun other => other == name) = none := by
        rw [List.find?_eq_none]
        rintro other member same
        obtain rfl : other = name := by simpa using same
        exact unlisted member
      simp [Function.comp_def, pointsChange, absent]
      rfl

theorem points_of_not_mem_scoreNames (whole : before.HasWholeScores)
    (whole' : after.HasWholeScores) {name : String} (absent : name ∉ scoreNames before after) :
    before.points name = 0 ∧ after.points name = 0 := by
  simp only [scoreNames, List.mem_eraseDups, List.mem_append, not_or] at absent
  rw [whole.points_eq, whole'.points_eq, Fields.get?_eq_none_iff.mpr absent.1,
    Fields.get?_eq_none_iff.mpr absent.2]
  exact ⟨rfl, rfl⟩

theorem changed_pointsChange (name : String) :
    (pointsChange before after name).changed = true ↔ before.points name ≠ after.points name := by
  simp only [ScoreChange.changed, pointsChange, Number.isZero, Bool.not_eq_true',
    beq_eq_false_iff_ne, sub_ne_zero]
  exact ne_comm

/-- A difference has what is needed to get from one profile to the other, and nothing else. -/
structure Reconstructs (before after : Profile) (diff : ProfileDiff) : Prop where
  /-- The scores of the first profile in its order, then the new ones of the second. -/
  names : diff.scores.map ScoreChange.name = before.scores.names ++
    after.scores.names.filter fun name => !before.scores.names.contains name
  once : (diff.scores.map ScoreChange.name).Nodup
  values : ∀ change ∈ diff.scores,
    change.before = before.score change.name ∧ change.after = after.score change.name
  /-- The changes lead from the one to the other, and no change means an equal score. -/
  score : ∀ name, (before.score name).add (diff.deltaOf name) = .ok (after.score name)
  distinct : diff.added.Nodup ∧ diff.removed.Nodup ∧ diff.unchanged.Nodup
  apart : diff.added.Disjoint diff.removed ∧ diff.added.Disjoint diff.unchanged ∧
    diff.removed.Disjoint diff.unchanged
  old : Interleaves diff.removed diff.unchanged before.tags
  new : ∀ tag, tag ∈ after.tags ↔ tag ∈ diff.added ∨ tag ∈ diff.unchanged
  order : diff.added.Sublist after.tags
  empty : diff.isEmpty = true ↔ (∀ name, before.score name = after.score name) ∧
    ∀ tag, tag ∈ before.tags ↔ tag ∈ after.tags

/-- Integers that are lined up add up, and without a change nothing is different. -/
theorem scores_reconstruct (whole : before.HasWholeScores) (whole' : after.HasWholeScores)
    (scores : diff.scores = (scoreNames before after).map (pointsChange before after)) :
    (∀ name, (before.score name).add (diff.deltaOf name) = .ok (after.score name)) ∧
      (diff.changedScores = [] ↔ ∀ name, before.score name = after.score name) := by
  have unlisted := @points_of_not_mem_scoreNames before after whole whole'
  constructor
  · intro name
    have delta : diff.deltaOf name = .int (after.points name - before.points name) := by
      rw [deltaOf_of_scores scores]
      split
      case isTrue => rfl
      case isFalse absent => rw [(unlisted absent).1, (unlisted absent).2, Int.sub_self]
    rw [whole.score_eq, whole'.score_eq, delta]
    exact congrArg (fun n => Except.ok (Number.int n)) (add_sub_cancel _ _)
  · rw [changedScores, scores, List.filter_eq_nil_iff]
    simp only [List.forall_mem_map, changed_pointsChange, not_not, whole.score_eq,
      whole'.score_eq, Number.int.injEq]
    refine ⟨fun same name => ?_, fun same name _ => same name⟩
    by_cases listed : name ∈ scoreNames before after
    · exact same name listed
    · rw [(unlisted listed).1, (unlisted listed).2]

theorem SortsTags.isEmpty_iff (tags : SortsTags before after diff) :
    diff.isEmpty = true ↔
      diff.changedScores = [] ∧ ∀ tag, tag ∈ before.tags ↔ tag ∈ after.tags := by
  simp only [isEmpty, Bool.and_eq_true, List.isEmpty_iff, tags.added, tags.removed,
    List.filter_eq_nil_iff, and_assoc]
  refine and_congr_right fun _ => ?_
  simp only [Profile.hasTag, List.contains_eq_mem, Bool.not_eq_true', decide_eq_false_iff_not,
    not_not]
  exact ⟨fun both tag => ⟨both.2 tag, both.1 tag⟩,
    fun same => ⟨fun tag => (same tag).mpr, fun tag => (same tag).mp⟩⟩

/-- Profiles with integer scores have a difference, and it reconstructs the second one from the
    first one. -/
theorem of_reconstructs (before after : Profile) (accepted : before.WellFormed)
    (accepted' : after.WellFormed) (whole : before.HasWholeScores)
    (whole' : after.HasWholeScores) :
    ∃ diff, of before after = .ok diff ∧ Reconstructs before after diff := by
  obtain ⟨diff, found, scores, -, -⟩ := of_whole whole whole'
  have tags := sortsTags_of_eq_ok found accepted.tags accepted'.tags
  obtain ⟨score, unchanged⟩ := scores_reconstruct whole whole' scores
  have names : diff.scores.map ScoreChange.name = scoreNames before after := by
    rw [scores, List.map_map]
    exact List.map_id _
  refine ⟨diff, found, ?_⟩
  constructor
  case names =>
      exact names.trans (eraseDups_append_of_nodup accepted.scoreNames accepted'.scoreNames)
  case once => exact names ▸ nodup_eraseDups _
  case values =>
      rw [scores, List.forall_mem_map]
      exact fun name _ => ⟨(whole.score_eq name).symm, (whole'.score_eq name).symm⟩
  case score => exact score
  case distinct =>
      rw [tags.added, tags.removed, tags.unchanged]
      exact ⟨accepted'.tags.filter _, accepted.tags.filter _, accepted.tags.filter _⟩
  case apart =>
      rw [tags.added, tags.removed, tags.unchanged]
      simp +contextual [List.Disjoint, Profile.hasTag]
  case old =>
      rw [tags.removed, tags.unchanged]
      exact interleaves_filter (by simp) before.tags
  case new =>
      intro tag
      rw [tags.added, tags.unchanged]
      by_cases kept : tag ∈ before.tags <;> simp [Profile.hasTag, kept]
  case order => exact tags.added ▸ List.filter_sublist
  case empty => rw [tags.isEmpty_iff, unchanged]

def newcomer : Profile where
  customerId := "C1"
  scores := [("risk", .int 0), ("growth", .int 2)]
  tags := ["new", "mobile"]

def regular : Profile where
  customerId := "C1"
  scores := [("visits", .int 3), ("growth", .int 5)]
  tags := ["mobile", "loyal"]

/-- A score of 0 that only one side has is listed, and reads the same on both. -/
theorem of_reconstructs_regular :
    newcomer.WellFormed ∧ regular.WellFormed ∧ newcomer.HasWholeScores ∧ regular.HasWholeScores ∧
      ∃ diff, of newcomer regular = .ok diff ∧ Reconstructs newcomer regular diff := by
  have accepted : newcomer.WellFormed := ⟨by decide, by decide⟩
  have accepted' : regular.WellFormed := ⟨by decide, by decide⟩
  have whole : newcomer.HasWholeScores :=
    Profile.hasWholeScores_of_forall (by simp [newcomer, Number.isWhole_int])
  have whole' : regular.HasWholeScores :=
    Profile.hasWholeScores_of_forall (by simp [regular, Number.isWhole_int])
  exact ⟨accepted, accepted', whole, whole',
    of_reconstructs _ _ accepted accepted' whole whole'⟩

/-! ## Tables -/

/-- The difference of a score exists and can be written. -/
def Tells (before after : Profile) (name : String) : Prop :=
  ∃ delta, (after.score name).sub (before.score name) = .ok delta ∧ delta.isWritable = true

theorem scoreChange_eq_ok_iff {name : String} {change : ScoreChange} :
    ScoreChange.of before after name = .ok change ↔
      ∃ delta, (after.score name).sub (before.score name) = .ok delta ∧
        change = ⟨name, before.score name, after.score name, delta⟩ := by
  rw [ScoreChange.of]
  cases (after.score name).sub (before.score name) <;> simp [eq_comm]

theorem of_returns_iff : (∃ diff, of before after = .ok diff) ↔
    ∀ name ∈ scoreNames before after, ∃ delta,
      (after.score name).sub (before.score name) = .ok delta := by
  have each (name : String) : (∃ change, ScoreChange.of before after name = .ok change) ↔
      ∃ delta, (after.score name).sub (before.score name) = .ok delta := by
    simp only [scoreChange_eq_ok_iff]
    exact ⟨fun ⟨_, delta, found, _⟩ => ⟨delta, found⟩, fun ⟨delta, found⟩ => ⟨_, delta, found, rfl⟩⟩
  simp only [← each, ← Outcome.mapM_returns_iff, of]
  cases (scoreNames before after).mapM (ScoreChange.of before after) <;> simp

theorem scoreLine_returns_iff {name : String} (old : (before.score name).isWritable = true)
    (new : (after.score name).isWritable = true) :
    (∃ line, Tables.scoreLine before after name = .ok line) ↔ Tells before after name := by
  rw [Tables.scoreLine, Number.plain_of_isWritable old, Outcome.ok_bind, ScoreChange.of, Tells]
  cases (after.score name).sub (before.score name) with
  | error fault => simp
  | ok delta =>
      simp only [Outcome.ok_bind, Outcome.pure_eq, Except.ok.injEq, exists_eq_left']
      cases zero : delta.isZero with
      | true => simp [ScoreChange.changed, zero, Number.isWritable_of_isZero zero]
      | false =>
          simp only [ScoreChange.changed, zero, Number.plain_of_isWritable new, Outcome.ok_bind]
          cases writable : delta.isWritable <;> simp [Number.plain, writable]

theorem table_returns_iff {customerId : String}
    (old : ∀ name, (before.score name).isWritable = true)
    (new : ∀ name, (after.score name).isWritable = true) :
    (∃ table, Tables.profileDiff before after customerId = .ok table) ↔
      ∀ name ∈ scoreNames before after, Tells before after name := by
  have lines : (∃ lines, Tables.scoreLines before after = .ok lines) ↔
      ∀ name ∈ scoreNames before after, Tells before after name := by
    have each (name : String) := scoreLine_returns_iff (old name) (new name)
    simp only [← each, ← Outcome.mapM_returns_iff, Tables.scoreLines]
    cases scoreNames before after <;> simp
  constructor
  · rintro ⟨table, done⟩
    obtain ⟨found, told, -⟩ := Outcome.bind_eq_ok_iff.mp done
    exact lines.mp ⟨found, told⟩
  · intro tells
    obtain ⟨found, told⟩ := lines.mpr tells
    obtain ⟨diff, differ⟩ := of_returns_iff.mpr fun name member =>
      (tells name member).imp fun _ found => found.1
    rw [Tables.profileDiff, told, differ]
    exact ⟨_, rfl⟩

end ProfileDiff

end NextOffer
