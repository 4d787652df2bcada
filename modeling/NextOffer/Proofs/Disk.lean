import NextOffer.Disk
import NextOffer.Proofs.Outcome

/-! # Files that were written

A file that was written is found at its path with its new text, and can be written again. A walk
to the file leaves directories only, so that what becomes of the file does not lead it astray.
-/

namespace NextOffer.Disk

variable {disk disk' : Disk} {path place other : FilePath} {entry : Entry}

theorem named_of_free (free : disk.at? place ≠ some .directory) :
    place.names.all (· == "..") = false := by
  cases dots : place.names.all (· == "..") with
  | false => rfl
  | true =>
      rw [at?, if_pos dots] at free
      exact absurd rfl free

theorem at?_put_self (free : disk.at? place ≠ some .directory) (entry : Entry) :
    (disk.put place entry).at? place = some entry := by
  simp [at?, named_of_free free, put, Fields.get?_set]

theorem at?_put_of_directory (free : disk.at? place ≠ some .directory)
    (directory : disk.at? other = some .directory) (entry : Entry) :
    (disk.put place entry).at? other = some .directory := by
  cases dots : other.names.all (· == "..") with
  | true => rw [at?, if_pos dots]
  | false =>
      have apart : place.text ≠ other.text := by
        intro same
        simp only [at?, dots, named_of_free free, if_false, Bool.false_eq_true] at free directory
        exact free (same ▸ directory)
      simp only [at?, dots, put, Fields.get?_set, if_neg apart] at directory ⊢
      exact directory

theorem at?_put_of_ne (apart : place.text ≠ other.text) (entry : Entry) :
    (disk.put place entry).at? other = disk.at? other := by
  simp only [at?, put, Fields.get?_set, if_neg apart]

/-- A walk leads where its names say, whatever the disk holds. -/
theorem foldl_step_of_walk {goal start : FilePath} {names : List String}
    (reached : disk.walk goal start names = .ok other) :
    names.foldl FilePath.step start = other := by
  induction names generalizing start with
  | nil =>
      cases reached
      rfl
  | cons name rest ih =>
      rw [walk] at reached
      split at reached
      case h_1 | h_2 => cases reached
      case h_3 =>
          split at reached
          case isTrue => cases reached
          case isFalse => exact ih reached

theorem place_of_locate (located : disk.locate path = .ok other) : path.place = other := by
  rw [locate] at located
  split_ifs at located
  exact foldl_step_of_walk located

theorem walk_put {goal start : FilePath} {names : List String}
    (reached : disk.walk goal start names = .ok other) (free : disk.at? place ≠ some .directory)
    (entry : Entry) : (disk.put place entry).walk goal start names = .ok other := by
  induction names generalizing start with
  | nil => exact reached
  | cons name rest ih =>
      rw [walk] at reached
      split at reached
      case h_1 | h_2 => cases reached
      case h_3 directory =>
          rw [walk, at?_put_of_directory free directory]
          dsimp only
          split at reached
          case isTrue => cases reached
          case isFalse short => rw [if_neg short, ih reached]

theorem locate_put (located : disk.locate path = .ok other)
    (free : disk.at? place ≠ some .directory) (entry : Entry) :
    (disk.put place entry).locate path = .ok other := by
  rw [locate] at located ⊢
  split at located
  case isTrue => cases located
  case isFalse known =>
      split at located
      case isTrue => cases located
      case isFalse short => rw [if_neg known, if_neg short, walk_put located free entry]

/-- The path leads to a file with this text. -/
def Holds (disk : Disk) (path : FilePath) (text : String) : Prop :=
  disk.look path = .ok (some (.file text))

theorem holds_iff {text : String} : disk.Holds path text ↔
    ∃ place, disk.locate path = .ok place ∧ disk.at? place = some (.file text) := by
  unfold Holds look
  split <;> simp_all

theorem holds_put {text : String} (held : disk.Holds path text)
    (free : disk.at? place ≠ some .directory)
    (kept : disk.at? place = some (.file text) → entry = .file text) :
    (disk.put place entry).Holds path text := by
  obtain ⟨found, located, present⟩ := holds_iff.mp held
  refine holds_iff.mpr ⟨found, locate_put located free entry, ?_⟩
  cases dots : found.names.all (· == "..") with
  | true =>
      rw [at?, if_pos dots] at present
      cases present
  | false =>
      simp only [at?, dots, named_of_free free, put, Fields.get?_set, if_false,
        Bool.false_eq_true] at present kept ⊢
      split
      case isTrue same => rw [kept (same ▸ present)]
      case isFalse => exact present

theorem holds_of_createDirectory {text : String} (held : disk.Holds path text)
    (created : disk.createDirectory other = .ok disk') : disk'.Holds path text := by
  obtain ⟨place, located, created⟩ := Outcome.bind_eq_ok_iff.mp created
  split at created
  case h_1 absent =>
      cases created
      exact holds_put held (by simp [absent]) (by simp [absent])
  case h_2 => cases created

theorem change_eq_ok_iff {new : String → String} :
    disk.change path new = .ok disk' ↔
      ∃ place old, disk.locate path = .ok place ∧ (disk.at? place).getD (.file "") = .file old ∧
        disk' = disk.put place (.file (new old)) := by
  rw [change, Outcome.bind_eq_ok_iff]
  refine exists_congr fun place => ?_
  rcases disk.at? place with _ | _ | text <;> simp [eq_comm]

theorem free_of_getD {text : String} (file : (disk.at? place).getD (.file "") = .file text) :
    disk.at? place ≠ some .directory := by
  intro directory
  rw [directory] at file
  cases file

theorem holds_of_change {new : String → String} (changed : disk.change path new = .ok disk') :
    ∃ old, disk'.Holds path (new old) := by
  obtain ⟨place, old, located, file, rfl⟩ := change_eq_ok_iff.mp changed
  have free := free_of_getD file
  exact ⟨old, holds_iff.mpr ⟨place, locate_put located free _, at?_put_self free _⟩⟩

theorem holds_of_write {text : String} (written : disk.write path text = .ok disk') :
    disk'.Holds path text := by
  obtain ⟨_, held⟩ := holds_of_change written
  exact held

theorem holds_of_append_nothing {text : String} (held : disk.Holds path text)
    (appended : disk.append other "" = .ok disk') : disk'.Holds path text := by
  obtain ⟨place, old, located, file, rfl⟩ := change_eq_ok_iff.mp appended
  refine holds_put held (free_of_getD file) fun present => ?_
  rw [present] at file
  rw [String.append_empty]
  exact file.symm

theorem exists_change_of_holds {text : String} (held : disk.Holds path text)
    (new : String → String) : ∃ disk', disk.change path new = .ok disk' := by
  obtain ⟨place, located, present⟩ := holds_iff.mp held
  exact ⟨_, change_eq_ok_iff.mpr ⟨place, text, located, by rw [present]; rfl, rfl⟩⟩

/-! ## What a path goes through -/

/-- Nothing has become different but what the path goes through, which are directories above it
and itself. -/
def SameBut (through : Option FilePath) (disk disk' : Disk) : Prop :=
  ∀ place, (∀ path ∈ through, ∀ names, names <+: path.names →
    (FilePath.mk path.root names).place.text ≠ place.text) → disk'.at? place = disk.at? place

variable {through : Option FilePath}

theorem SameBut.refl (through : Option FilePath) (disk : Disk) : SameBut through disk disk :=
  fun _ _ => rfl

theorem SameBut.put {start : Disk} {names : List String}
    (same : SameBut through start disk) (among : path ∈ through) (inside : names <+: path.names)
    (located : disk.locate ⟨path.root, names⟩ = .ok place) (entry : Entry) :
    SameBut through start (disk.put place entry) := by
  intro other apart
  have elsewhere : place.text ≠ other.text :=
    place_of_locate located ▸ apart path among names inside
  rw [at?_put_of_ne elsewhere, same other apart]

theorem SameBut.createDirectory {start : Disk} {names : List String}
    (same : SameBut through start disk) (among : path ∈ through) (inside : names <+: path.names)
    (created : disk.createDirectory ⟨path.root, names⟩ = .ok disk') :
    SameBut through start disk' := by
  obtain ⟨place, located, created⟩ := Outcome.bind_eq_ok_iff.mp created
  split at created
  case h_1 =>
      cases created
      exact same.put among inside located _
  case h_2 => cases created

theorem SameBut.change {start : Disk} {new : String → String} (same : SameBut through start disk)
    (among : path ∈ through) (changed : disk.change path new = .ok disk') :
    SameBut through start disk' := by
  obtain ⟨place, old, located, -, rfl⟩ := change_eq_ok_iff.mp changed
  exact same.put among List.prefix_rfl located _

end NextOffer.Disk
