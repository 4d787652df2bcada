import NextOffer.Proofs.Console

/-! # Files in a directory

A text without slashes names an entry of a directory, and different texts name different entries.
Once a directory has been made, a file can be written in it unless its name has a null character,
or is too long, or belongs to a directory.
-/

namespace NextOffer

namespace FilePath

/-! ## Names in a text -/

/-- The names between the slashes of a text. -/
def namesIn (cs : List Char) : List String :=
  ((cs.splitOn '/').filter fun name => name != [] && name != ['.']).map String.ofList

theorem names_ofText (text : String) : (ofText text).names = namesIn text.toList := rfl

theorem namesIn_append (front back : List Char) :
    namesIn (front ++ '/' :: back) = namesIn front ++ namesIn back := by
  rw [namesIn, List.splitOn_append_cons_self, List.filter_append, List.map_append, ← namesIn,
    ← namesIn]

theorem namesIn_of_noSlash {cs : List Char} (noSlash : '/' ∉ cs) (named : cs ≠ [] ∧ cs ≠ ['.']) :
    namesIn cs = [String.ofList cs] := by
  simp [namesIn, List.splitOn_eq_singleton noSlash, named]

theorem namesIn_ne_nil {cs : List Char} {c : Char} (member : c ∈ cs) (noSlash : c ≠ '/')
    (noDot : c ≠ '.') : namesIn cs ≠ [] := by
  have named {cs : List Char} (member : c ∈ cs) : cs ≠ [] ∧ cs ≠ ['.'] :=
    ⟨List.ne_nil_of_mem member, fun dot => noDot (List.mem_singleton.mp (dot ▸ member))⟩
  by_cases slash : '/' ∈ cs
  · obtain ⟨front, back, rfl, before⟩ := List.eq_append_cons_of_mem slash
    rw [namesIn_append, Ne, List.append_eq_nil_iff, not_and_or]
    rcases List.mem_append.mp member with first | later
    · rw [namesIn_of_noSlash before (named first)]
      exact .inl (List.cons_ne_nil _ _)
    · have later := (List.mem_cons.mp later).resolve_left noSlash
      exact .inr (namesIn_ne_nil later noSlash noDot)
  · rw [namesIn_of_noSlash slash (named member)]
    exact List.cons_ne_nil _ _
termination_by cs.length

theorem root_ofText_of_head {text : String} {c : Char} {cs : List Char}
    (begins : text.toList = c :: cs) (noSlash : c ≠ '/') : (ofText text).root = "" := by
  simp [ofText, begins, noSlash, rootOf]

theorem root_ofText (text : String) : (ofText text).root ∈ ["", "/", "//"] := by
  simp only [ofText, rootOf]
  split_ifs <;> simp

/-! ## Entries -/

/-- An entry of a directory. -/
def entry (directory : FilePath) (name : String) : FilePath :=
  { directory with names := directory.names ++ [name] }

variable {directory : FilePath} {name : String}

@[simp] theorem parent_entry : (directory.entry name).parent = directory := by
  simp [entry, parent]

theorem step_eq_entry (onward : name ≠ "..") : directory.step name = directory.entry name := by
  rw [step, if_pos onward, entry]

theorem place_entry (onward : name ≠ "..") :
    (directory.entry name).place = directory.place.entry name := by
  rw [place, entry, List.foldl_append, ← step_eq_entry onward]
  rfl

/-- The text of a path up to an entry, which ends with a slash unless it is empty. -/
def above (directory : FilePath) : String :=
  directory.root ++ String.join (directory.names.map (· ++ "/"))

theorem text_entry (directory : FilePath) (name : String) :
    (directory.entry name).text = directory.above ++ name := by
  have slashes (names : List String) :
      "/".intercalate (names ++ [name]) = String.join (names.map (· ++ "/")) ++ name := by
    apply String.toList_inj.mp
    simp only [String.toList_intercalate, String.toList_append, String.toList_join]
    induction names with
    | nil => simp
    | cons first rest ih =>
        cases rest <;> simp_all [List.intercalate, List.intersperse]
  rw [text, if_neg (by simp [entry]), entry, slashes, above, String.append_assoc]

theorem entry_text_inj {name' : String}
    (same : (directory.entry name).text = (directory.entry name').text) : name = name' := by
  rw [text_entry, text_entry] at same
  exact (String.append_right_inj _).mp same

theorem hasNull_entry : (directory.entry name).hasNull = true ↔
    directory.hasNull = true ∨ '\x00' ∈ name.toList := by
  have before : '\x00' ∈ directory.above.toList ↔ directory.hasNull = true := by
    rcases List.eq_nil_or_concat' directory.names with none | ⟨front, last, same⟩
    · simp only [hasNull, above, text, none]
      by_cases root : directory.root = "" <;> simp [root]
    · have inner : directory = (FilePath.mk directory.root front).entry last := by
        rw [entry, ← same]
      have further : directory.above = directory.text ++ "/" := by
        rw [inner, text_entry]
        simp [above, entry, String.append_assoc]
      simp [further, hasNull]
  simp [hasNull, text_entry, before]

end FilePath

namespace Disk

variable {disk disk' : Disk} {directory goal start place : FilePath} {name : String}

theorem walk_append {front : List String} (led : disk.walk goal start front = .ok place)
    (goal' : FilePath) (back : List String) :
    disk.walk goal' start (front ++ back) = disk.walk goal' place back := by
  induction front generalizing start with
  | nil =>
      cases led
      rfl
  | cons name rest ih =>
      rw [walk] at led
      split at led
      case h_1 | h_2 => cases led
      case h_3 entered =>
          split at led
          case isTrue => cases led
          case isFalse short =>
              rw [List.cons_append, walk, entered]
              dsimp only
              rw [if_neg short, ih led]

theorem look_eq_ok_iff {path : FilePath} {found : Entry} :
    disk.look path = .ok (some found) ↔
      ∃ place, disk.locate path = .ok place ∧ disk.at? place = some found := by
  unfold look
  split <;> simp_all

/-- What it takes to name an entry. -/
structure CanName (directory : FilePath) (name : String) : Prop where
  noNull : '\x00' ∉ name.toList
  short : name.utf8ByteSize ≤ FilePath.nameRoom
  within : (directory.entry name).text.utf8ByteSize ≤ FilePath.room

theorem locate_entry (found : disk.look directory = .ok (some .directory))
    (onward : name ≠ "..") {place : FilePath} :
    disk.locate (directory.entry name) = .ok place ↔
      CanName directory name ∧ place = directory.place.entry name := by
  obtain ⟨inner, located, entered⟩ := look_eq_ok_iff.mp found
  have same := place_of_locate located
  rw [locate] at located
  split_ifs at located with null long
  have last : disk.walk (directory.entry name) { directory with names := [] }
      (directory.names ++ [name]) =
        if FilePath.nameRoom < name.utf8ByteSize then .error (.nameTooLong (directory.entry name))
        else .ok (inner.entry name) := by
    rw [walk_append located, walk, entered]
    simp only [walk, FilePath.step_eq_entry onward]
  constructor
  · intro reached
    rw [locate] at reached
    split_ifs at reached with null' long'
    have reached := last.symm.trans reached
    split_ifs at reached with tooLong
    cases reached
    rw [same]
    exact ⟨⟨fun member => null' (FilePath.hasNull_entry.mpr (.inr member)),
      Nat.le_of_not_lt tooLong, Nat.le_of_not_lt long'⟩, rfl⟩
  · rintro ⟨canName, rfl⟩
    have null' : ¬ (directory.entry name).hasNull = true := by
      rw [FilePath.hasNull_entry]
      exact not_or.mpr ⟨null, canName.noNull⟩
    rw [locate, if_neg null', if_neg (Nat.not_lt.mpr canName.within), same]
    exact last.trans (if_neg (Nat.not_lt.mpr canName.short))

/-- A file can be written in a directory where its name can stand and is not a directory's. -/
theorem write_entry_returns_iff (found : disk.look directory = .ok (some .directory))
    (onward : name ≠ "..") (text : String) :
    (∃ disk', disk.write (directory.entry name) text = .ok disk') ↔
      CanName directory name ∧ disk.look (directory.entry name) ≠ .ok (some .directory) := by
  constructor
  · rintro ⟨disk', written⟩
    obtain ⟨place, old, located, file, -⟩ := change_eq_ok_iff.mp written
    refine ⟨((locate_entry found onward).mp located).1, fun taken => ?_⟩
    obtain ⟨place', located', directory⟩ := look_eq_ok_iff.mp taken
    cases located.symm.trans located'
    exact free_of_getD file directory
  · rintro ⟨canName, free⟩
    have located := (locate_entry found onward).mpr ⟨canName, rfl⟩
    cases there : disk.at? (directory.place.entry name) with
    | none => exact ⟨_, change_eq_ok_iff.mpr ⟨_, "", located, by rw [there]; rfl, rfl⟩⟩
    | some entry =>
        cases entry with
        | directory => exact absurd (look_eq_ok_iff.mpr ⟨_, located, there⟩) free
        | file old => exact ⟨_, change_eq_ok_iff.mpr ⟨_, old, located, by rw [there]; rfl, rfl⟩⟩

theorem holds_of_change_of_ne {path other : FilePath} {text : String} {new : String → String}
    (held : disk.Holds other text) (apart : path.place.text ≠ other.place.text)
    (changed : disk.change path new = .ok disk') : disk'.Holds other text := by
  obtain ⟨place, old, located, file, rfl⟩ := change_eq_ok_iff.mp changed
  obtain ⟨there, locatedOther, present⟩ := holds_iff.mp held
  rw [place_of_locate located, place_of_locate locatedOther] at apart
  refine holds_iff.mpr ⟨there, locate_put locatedOther (free_of_getD file) _, ?_⟩
  rw [at?_put_of_ne apart, present]

theorem look_of_createDirectory {path : FilePath}
    (created : disk.createDirectory path = .ok disk') : disk'.look path = .ok (some .directory) := by
  obtain ⟨place, located, created⟩ := Outcome.bind_eq_ok_iff.mp created
  split at created
  case h_1 absent =>
      have free : disk.at? place ≠ some .directory := by simp [absent]
      cases created
      exact look_eq_ok_iff.mpr ⟨place, locate_put located free _, at?_put_self free _⟩
  case h_2 => cases created

theorem look_root {root : String} (known : root ∈ ["", "/", "//"]) (disk : Disk) :
    disk.look ⟨root, []⟩ = .ok (some .directory) := by
  simp only [List.mem_cons, List.not_mem_nil, or_false] at known
  rcases known with rfl | rfl | rfl <;> rfl

end Disk

namespace Console

variable {around : Surroundings} {console reached : Console}
  {path : FilePath}

theorem look_of_provide
    (provided : console.run around (Job.provide path) = (.ok true, reached)) :
    reached.disk.look path = .ok (some .directory) := by
  obtain ⟨created, between, first, rest⟩ := run_bind_eq_ok_iff.mp provided
  have first : alter (·.createDirectory path) console = (created, between) := by
    rw [run_act, Prod.mk.injEq, Except.ok.injEq] at first
    exact Prod.ext first.1 first.2
  unfold alter at first
  split at first
  case h_1 disk made =>
      cases first
      cases rest
      exact Disk.look_of_createDirectory made
  case h_2 fault failed =>
      cases first
      split at rest
      case h_1 same => cases same
      case h_2 => cases rest
      case h_3 =>
          obtain ⟨found, _, looked, last⟩ := run_bind_eq_ok_iff.mp rest
          obtain ⟨there, rfl⟩ := run_look_eq_ok_iff.mp looked
          split at last
          case h_1 =>
              cases last
              exact there
          case h_2 => cases last

theorem look_of_makeDirectories (known : path.root ∈ ["", "/", "//"])
    (made : console.run around (Job.makeDirectories path) = (.ok (), reached)) :
    reached.disk.look path = .ok (some .directory) := by
  rw [Job.makeDirectories] at made
  cases names : path.names.reverse with
  | nil =>
      have root : path = ⟨path.root, []⟩ := by
        rw [← List.reverse_eq_nil_iff.mp names]
      rw [root]
      exact Disk.look_root known _
  | cons name rest =>
      have whole : path = ⟨path.root, (name :: rest).reverse⟩ := by
        rw [← names, List.reverse_reverse]
      rw [names, Job.provideAll, ← whole] at made
      obtain ⟨provided, between, first, later⟩ := run_bind_eq_ok_iff.mp made
      cases provided with
      | true =>
          cases later
          exact look_of_provide first
      | false =>
          obtain ⟨_, _, _, again⟩ := run_bind_eq_ok_iff.mp later
          obtain ⟨provided, _, second, last⟩ := run_bind_eq_ok_iff.mp again
          cases provided with
          | true =>
              cases last
              exact look_of_provide second
          | false => cases last

end Console

end NextOffer
