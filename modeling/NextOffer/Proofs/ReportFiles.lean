import NextOffer.Proofs.Calendar
import NextOffer.Proofs.Command.Inputs
import NextOffer.Proofs.Csv
import NextOffer.Proofs.Directories

/-! # Each report has its own file

A report is kept under a name that holds its customer and its date. Whoever the customer is and
whatever the date, the name tells both, since dates have texts of one length. It is the name of
one file, though, only if the customer has no slash: with one, the name leads to another directory,
which usually does not exist.
-/

namespace NextOffer.Report

inductive Kind where
  | ranking
  | simulation
  deriving DecidableEq

namespace Kind

def front : Kind → String
  | ranking => "recommendations_"
  | simulation => "simulation_"

def extension : Kind → String
  | ranking => ".csv"
  | simulation => ".json"

def fileName (kind : Kind) (customerId label : String) : String :=
  kind.front ++ customerId ++ "_" ++ label ++ kind.extension

variable {kind kind' : Kind} {customerId customerId' label : String} {date date' : Date}

theorem toList_fileName (kind : Kind) (customerId label : String) :
    (kind.fileName customerId label).toList =
      kind.front.toList ++
        (customerId.toList ++ '_' :: (label.toList ++ kind.extension.toList)) := by
  simp [fileName]

/-- The name of a file tells what it is about. -/
theorem fileName_inj
    (same : kind.fileName customerId date.text = kind'.fileName customerId' date'.text) :
    kind = kind' ∧ customerId = customerId' ∧ date = date' := by
  have chars := congrArg String.toList same
  rw [toList_fileName, toList_fileName] at chars
  obtain rfl : kind = kind' := by
    cases kind <;> cases kind' <;> first | rfl | cases chars
  have rest := List.append_cancel_left chars
  have length : date.text.toList.length = date'.text.toList.length := by
    simp [Date.text, Calendar.length_dateChars]
  obtain ⟨customers, labels⟩ := List.append_inj' rest (by simp [length])
  have dates := List.append_cancel_right (List.cons.inj labels).2
  exact ⟨rfl, String.toList_inj.mp customers, Calendar.dateText_inj (String.toList_inj.mp dates)⟩

theorem mem_fileName_iff {c : Char} (foreign : c = '/' ∨ c = '\x00') :
    c ∈ (kind.fileName customerId date.text).toList ↔ c ∈ customerId.toList := by
  have front : c ∉ kind.front.toList := by
    rcases foreign with rfl | rfl <;> cases kind <;> decide
  have extension : c ∉ '_' :: kind.extension.toList := by
    rcases foreign with rfl | rfl <;> cases kind <;> decide
  have label : c ∉ date.chars := by
    intro member
    rcases foreign with rfl | rfl <;> rcases Calendar.isDigit_of_mem_dateChars member with h | h <;>
      cases h
  simp_all [toList_fileName, Date.text]

theorem root_ofText_fileName (kind : Kind) (customerId label : String) :
    (FilePath.ofText (kind.fileName customerId label)).root = "" := by
  have chars := toList_fileName kind customerId label
  cases kind <;> exact FilePath.root_ofText_of_head chars (by decide)

theorem join_fileName (directory : FilePath) (noSlash : '/' ∉ customerId.toList) :
    directory.join (FilePath.ofText (kind.fileName customerId date.text)) =
      directory.entry (kind.fileName customerId date.text) := by
  have chars := toList_fileName kind customerId date.text
  have named : (kind.fileName customerId date.text).toList ≠ [] ∧
      (kind.fileName customerId date.text).toList ≠ ['.'] := by
    rw [chars]
    cases kind <;> simp [front]
  have single := FilePath.namesIn_of_noSlash
    (fun slash => noSlash ((mem_fileName_iff (.inl rfl)).mp slash)) named
  rw [FilePath.join, if_pos (root_ofText_fileName ..), FilePath.names_ofText, single,
    String.ofList_toList]
  rfl

theorem parent_join_fileName_iff (directory : FilePath) :
    (directory.join (FilePath.ofText (kind.fileName customerId date.text))).parent = directory ↔
      '/' ∉ customerId.toList := by
  constructor
  · intro same slash
    obtain ⟨before, after, divided⟩ := List.append_of_mem slash
    have chars : (kind.fileName customerId date.text).toList =
        (kind.front.toList ++ before) ++
          '/' :: (after ++ '_' :: (date.text.toList ++ kind.extension.toList)) := by
      simp [toList_fileName, divided]
    have outer : FilePath.namesIn (kind.front.toList ++ before) ≠ [] := by
      refine FilePath.namesIn_ne_nil (c := '_') ?_ (by decide) (by decide)
      cases kind <;> simp [front]
    have inner : FilePath.namesIn
        (after ++ '_' :: (date.text.toList ++ kind.extension.toList)) ≠ [] :=
      FilePath.namesIn_ne_nil (c := '_') (by simp) (by decide) (by decide)
    have names := congrArg (fun path => path.names.length) same
    rw [FilePath.join, if_pos (root_ofText_fileName ..), FilePath.names_ofText, chars,
      FilePath.namesIn_append] at names
    have outer := List.length_pos_iff.mpr outer
    have inner := List.length_pos_iff.mpr inner
    simp only [FilePath.parent, List.length_dropLast, List.length_append] at names
    omega
  · intro noSlash
    rw [join_fileName directory noSlash, FilePath.parent_entry]

end Kind

/-- A report that is kept in a file. -/
inductive Filing where
  | ranking (customerId : String) (date : Date) (recommendations : List Recommendation)
  | simulation (date : Date) (result : Simulation)

namespace Filing

/-- What the report is about and of which kind it is. -/
def key : Filing → Kind × String × Date
  | ranking customerId date _ => (.ranking, customerId, date)
  | simulation date result => (.simulation, result.final.customerId, date)

def customerId (filing : Filing) : String := filing.key.2.1

def name (filing : Filing) : String :=
  filing.key.1.fileName filing.customerId filing.key.2.2.text

def path (directory : FilePath) : Filing → FilePath
  | ranking customerId date _ => rankingPath directory customerId date.text
  | simulation date result => simulationPath directory result.final.customerId date.text

def text : Filing → Except Fault String
  | ranking _ _ recommendations => .ok (Csv.text recommendations)
  | simulation date result => do
      let report ← result.report date.text
      liftM (Json.Form.indented.render report)

variable {m : Type → Type} [Monad m]

def save (directory : FilePath) : Filing → Job m FilePath
  | ranking customerId date recommendations =>
      saveRanking directory customerId date.text recommendations
  | simulation date result => saveSimulation directory date.text result

theorem path_eq (directory : FilePath) (filing : Filing) :
    filing.path directory = directory.join (FilePath.ofText filing.name) := by
  cases filing <;> rfl

theorem save_eq [LawfulMonad m] (directory : FilePath) (filing : Filing) :
    filing.save (m := m) directory = do
      Job.makeDirectories directory
      let text ← Job.need filing.text
      Job.write (filing.path directory) text
      return filing.path directory := by
  cases filing with
  | ranking => simp [save, saveRanking, text, path, Job.need]
  | simulation date result =>
      cases reported : result.report date.text with
      | ok report => simp [save, saveSimulation, text, path, reported, Job.need]
      | error fault =>
          simp [save, saveSimulation, text, path, reported, Job.need, Job.crash_bind]

variable {around : Surroundings} {console final : Console}
  {directory path : FilePath} {filing other : Filing}

theorem run_save_eq_ok_iff :
    console.run around (filing.save directory) = (.ok path, final) ↔
      ∃ between text disk,
        console.run around (Job.makeDirectories directory) = (.ok (), between) ∧
        filing.text = .ok text ∧ between.disk.write (filing.path directory) text = .ok disk ∧
        path = filing.path directory ∧ final = { between with disk } := by
  rw [save_eq]
  constructor
  · intro saved
    obtain ⟨_, between, made, later⟩ := Console.run_bind_eq_ok_iff.mp saved
    obtain ⟨text, _, needed, last⟩ := Console.run_bind_eq_ok_iff.mp later
    obtain ⟨_, _, wrote, told⟩ := Console.run_bind_eq_ok_iff.mp last
    obtain ⟨reported, rfl⟩ := Console.run_need_eq_ok_iff.mp needed
    obtain ⟨disk, written, rfl⟩ := Console.run_write_eq_ok_iff.mp wrote
    rw [Console.run_pure, Prod.mk.injEq, Except.ok.injEq] at told
    exact ⟨_, text, disk, made, reported, written, told.1.symm, told.2.symm⟩
  · rintro ⟨between, text, disk, made, reported, written, rfl, rfl⟩
    rw [Console.run_bind_of_ok made,
      Console.run_bind_of_ok (Console.run_need_eq_ok_iff.mpr ⟨reported, rfl⟩),
      Console.run_bind_of_ok (Console.run_write_eq_ok_iff.mpr ⟨disk, written, rfl⟩),
      Console.run_pure]

theorem name_ne_dots (filing : Filing) : filing.name ≠ ".." := by
  intro dots
  have chars := congrArg String.toList dots
  rw [name, Kind.toList_fileName] at chars
  cases kind : filing.key.1 <;> rw [kind] at chars <;> cases chars

theorem path_eq_entry (directory : FilePath) (noSlash : '/' ∉ filing.customerId.toList) :
    filing.path directory = directory.entry filing.name := by
  rw [path_eq, name, Kind.join_fileName directory noSlash]

/-- What a report needs for a file of its own in a directory: that its customer has no character
that no file name has, that there is room for the name and for the whole path, and that no
directory has the name. There has to be something to write, too. -/
structure FitsInto (filing : Filing) (directory : FilePath) (disk : Disk) : Prop where
  noSlash : '/' ∉ filing.customerId.toList
  noNull : '\x00' ∉ filing.customerId.toList
  short : filing.name.utf8ByteSize ≤ FilePath.nameRoom
  within : (filing.path directory).text.utf8ByteSize ≤ FilePath.room
  free : disk.look (filing.path directory) ≠ .ok (some .directory)
  reported : ∃ text, filing.text = .ok text

/-- The report stands in the directory itself after it was saved. -/
def IsKept (filing : Filing) (directory : FilePath) (ended : Except Halt FilePath × Console) :
    Prop :=
  ∃ path text, ended.1 = .ok path ∧ path.parent = directory ∧ filing.text = .ok text ∧
    ended.2.disk.Holds path text

theorem isKept_iff {between : Console} (known : directory.root ∈ ["", "/", "//"])
    (made : console.run around (Job.makeDirectories directory) = (.ok (), between)) :
    filing.IsKept directory (console.run around (filing.save directory)) ↔
      filing.FitsInto directory between.disk := by
  have found := Console.look_of_makeDirectories known made
  have onward := filing.name_ne_dots
  constructor
  · rintro ⟨path, text, saved, parent, -, -⟩
    obtain ⟨_, text, disk, made', reported, written, rfl, -⟩ :=
      run_save_eq_ok_iff.mp (Prod.ext saved rfl)
    cases made.symm.trans made'
    rw [path_eq, name, Kind.parent_join_fileName_iff] at parent
    have same := path_eq_entry directory parent
    rw [same] at written
    obtain ⟨canName, free⟩ := (Disk.write_entry_returns_iff found onward text).mp ⟨disk, written⟩
    have noNull := mt (Kind.mem_fileName_iff (.inr rfl)).mpr canName.noNull
    exact ⟨parent, noNull, canName.short, same ▸ canName.within, same ▸ free, ⟨text, reported⟩⟩
  · rintro ⟨noSlash, noNull, short, within, free, ⟨text, reported⟩⟩
    have same := path_eq_entry directory noSlash
    rw [same] at within free
    have canName : Disk.CanName directory filing.name :=
      ⟨mt (Kind.mem_fileName_iff (.inr rfl)).mp noNull, short, within⟩
    obtain ⟨disk, written⟩ := (Disk.write_entry_returns_iff found onward text).mpr ⟨canName, free⟩
    have saved : console.run around (filing.save directory) =
        (.ok (filing.path directory), { between with disk }) :=
      run_save_eq_ok_iff.mpr ⟨between, text, disk, made, reported, same ▸ written, rfl, rfl⟩
    rw [saved]
    refine ⟨_, text, rfl, ?_, reported, Disk.holds_of_write (same ▸ written)⟩
    rw [same, FilePath.parent_entry]

/-- Reports have one file only if they are of one kind, customer and date. -/
theorem key_inj (noSlash : '/' ∉ filing.customerId.toList)
    (noSlash' : '/' ∉ other.customerId.toList)
    (same : (filing.path directory).place.text = (other.path directory).place.text) :
    filing.key = other.key := by
  rw [path_eq_entry directory noSlash, path_eq_entry directory noSlash',
    FilePath.place_entry filing.name_ne_dots, FilePath.place_entry other.name_ne_dots] at same
  obtain ⟨kind, customerId, date⟩ := Kind.fileName_inj (FilePath.entry_text_inj same)
  exact Prod.ext kind (Prod.ext customerId date)

theorem preserves_save {path : FilePath} {text : String}
    (apart : (filing.path directory).place.text ≠ path.place.text) :
    Console.Preserves (·.disk.Holds path text) (filing.save directory) := by
  have steady := Console.steady_holds path text
  have write (content : String) :
      Console.Preserves (·.disk.Holds path text) (Job.write (filing.path directory) content) :=
    .attempt (Console.preserves_alter (Disk.write · (filing.path directory) content)
      fun _ _ held => Disk.holds_of_change_of_ne held apart)
  have directories : Console.Preserves (·.disk.Holds path text) (Job.makeDirectories directory) :=
    .makeDirectories fun _ _ => steady.createDirectory _
  rw [save_eq]
  exact directories.bind fun _ => (Console.Preserves.need _).bind fun content =>
    (write content).bind fun _ => .pure _

/-- Save reports one after another. -/
def saveAll (directory : FilePath) : List Filing → Job m Unit
  | [] => return ()
  | filing :: rest => do
      let _ ← filing.save directory
      saveAll directory rest

theorem preserves_saveAll {path : FilePath} {text : String} {filings : List Filing}
    (apart : ∀ filing ∈ filings, (filing.path directory).place.text ≠ path.place.text) :
    Console.Preserves (·.disk.Holds path text) (saveAll directory filings) := by
  induction filings with
  | nil => exact .pure ()
  | cons filing rest ih =>
      obtain ⟨first, later⟩ := List.forall_mem_cons.mp apart
      exact (preserves_save first).bind fun _ => ih later

/-- Reports that were saved one after another are all there in the end. -/
theorem holds_of_saveAll {filings : List Filing}
    (noSlash : ∀ filing ∈ filings, '/' ∉ filing.customerId.toList)
    (apart : (filings.map key).Nodup)
    (saved : console.run around (saveAll directory filings) = (.ok (), final)) :
    ∀ filing ∈ filings, ∃ text, filing.text = .ok text ∧
      final.disk.Holds (filing.path directory) text := by
  induction filings generalizing console with
  | nil => simp
  | cons filing rest ih =>
      obtain ⟨known, later⟩ := List.forall_mem_cons.mp noSlash
      obtain ⟨foreign, apart⟩ := List.nodup_cons.mp apart
      obtain ⟨_, after, first, saved⟩ := Console.run_bind_eq_ok_iff.mp saved
      obtain ⟨between, text, disk, -, reported, written, -, rfl⟩ := run_save_eq_ok_iff.mp first
      have others : ∀ other ∈ rest,
          (other.path directory).place.text ≠ (filing.path directory).place.text :=
        fun other among same => foreign
          (key_inj (later other among) known same ▸ List.mem_map_of_mem among)
      have kept := preserves_saveAll others around { between with disk }
        (Disk.holds_of_write written)
      rw [saved] at kept
      exact List.forall_mem_cons.mpr ⟨⟨text, reported, kept⟩, ih later apart saved⟩

/-- In a directory that could be made, a report is kept if it fits in there, which a slash in its
customer prevents. Among customers without slashes, reports have different files unless they are
of one kind, customer and date, and none of them replaces another. -/
theorem kept_apart (directory : String) (around : Surroundings) :
    (∀ (filing : Filing) (console between : Console),
      console.run around (Job.makeDirectories (FilePath.ofText directory)) =
          (.ok (), between) →
        (filing.IsKept (FilePath.ofText directory)
            (console.run around (filing.save (FilePath.ofText directory))) ↔
          filing.FitsInto (FilePath.ofText directory) between.disk)) ∧
    (∀ first second : Filing,
      '/' ∉ first.customerId.toList → '/' ∉ second.customerId.toList →
        (first.path (FilePath.ofText directory)).place.text =
            (second.path (FilePath.ofText directory)).place.text →
          first.key = second.key) ∧
    ∀ (filings : List Filing) (console final : Console),
      (∀ filing ∈ filings, '/' ∉ filing.customerId.toList) → (filings.map key).Nodup →
        console.run around (saveAll (FilePath.ofText directory) filings) =
            (.ok (), final) →
          ∀ filing ∈ filings, ∃ text, filing.text = .ok text ∧
            final.disk.Holds (filing.path (FilePath.ofText directory)) text :=
  ⟨fun _ _ _ made => isKept_iff (FilePath.root_ofText directory) made,
    fun _ _ noSlash noSlash' => key_inj noSlash noSlash',
    fun _ _ _ noSlash apart saved => holds_of_saveAll noSlash apart saved⟩

theorem isDate_today : Calendar.IsDate 2026 2 5 := by decide

def today : Date := ⟨2026, 2, 5, isDate_today⟩

/-- Customers whose identifiers begin alike. -/
def neighbours : List Filing := [.ranking "a" today [], .ranking "a_2026-02-05" today []]

theorem kept_apart_neighbours :
    (∃ between, Console.run {} (.bare (.midnight today none))
        (Job.makeDirectories (FilePath.ofText "out")) = (.ok (), between) ∧
      (ranking "a" today []).FitsInto (FilePath.ofText "out") between.disk ∧
      (ranking "a" today []).IsKept (FilePath.ofText "out")
        (Console.run {} (.bare (.midnight today none))
          ((ranking "a" today []).save (FilePath.ofText "out")))) ∧
    ((∀ filing ∈ neighbours, '/' ∉ filing.customerId.toList) ∧
      ((ranking "a" today []).path (FilePath.ofText "out")).place.text ≠
        ((ranking "a_2026-02-05" today []).path (FilePath.ofText "out")).place.text) ∧
    (neighbours.map key).Nodup ∧
    ∃ final, Console.run {} (.bare (.midnight today none))
        (saveAll (FilePath.ofText "out") neighbours) = (.ok (), final) ∧
      ∀ filing ∈ neighbours, ∃ text, filing.text = .ok text ∧
        final.disk.Holds (filing.path (FilePath.ofText "out")) text := by
  obtain ⟨kept, different, all⟩ := kept_apart "out" (.bare (.midnight today none))
  have made : Console.run {} (.bare (.midnight today none))
      (Job.makeDirectories (FilePath.ofText "out")) = (.ok (), _) := rfl
  have fits : (ranking "a" today []).FitsInto (FilePath.ofText "out")
      (Disk.put {} (FilePath.ofText "out") .directory) :=
    ⟨by decide, by decide, by decide, by decide, by decide, ⟨_, rfl⟩⟩
  have saved : Console.run {} (.bare (.midnight today none))
      (saveAll (FilePath.ofText "out") neighbours) = (.ok (), _) := rfl
  have noSlash : ∀ filing ∈ neighbours, '/' ∉ filing.customerId.toList := by
    simp only [neighbours, List.forall_mem_cons]
    decide
  have apart : (neighbours.map key).Nodup := by decide
  have keys : (ranking "a" today []).key ≠ (ranking "a_2026-02-05" today []).key := by decide
  exact ⟨⟨_, made, fits, (kept _ _ _ made).mpr fits⟩,
    ⟨noSlash, fun same => keys (different _ _ (by decide) (by decide) same)⟩,
    apart, _, saved, all _ _ _ noSlash apart saved⟩

/-- With a slash in its customer a report is not kept, and two customers have one path. -/
theorem slashed_not_kept :
    (Console.run {} (.bare (.midnight today none))
      (saveRanking (FilePath.ofText "out") "a/b" today.text [])).1 =
        .error (.crashed (.disk (.missing (FilePath.ofText
          "out/recommendations_a/b_2026-02-05.csv")))) ∧
    (Console.run {} (.bare (.midnight today none))
      (saveSimulation (FilePath.ofText "out") today.text
        ⟨{ customerId := "a/b" }, { customerId := "a/b" }, [], [], ""⟩)).1 =
        .error (.crashed (.disk (.missing (FilePath.ofText
          "out/simulation_a/b_2026-02-05.json")))) ∧
    rankingPath (FilePath.ofText "out") "a/b" today.text =
      rankingPath (FilePath.ofText "out") "a//b" today.text := by
  decide +kernel

end Filing

end NextOffer.Report
