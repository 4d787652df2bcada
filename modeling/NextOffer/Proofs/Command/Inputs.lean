import NextOffer.Command.Inputs
import NextOffer.Proofs.Console

/-! # Inputs on a console

Reading settings and making the log ready prints nothing and leaves all files as they are. From
then on the log file is at hand, so that logging never halts a command, and a command that loads
a file with good records has them.
-/

namespace NextOffer

variable {around : Surroundings} {console reached : Console}

namespace Console

/-- What warnings, new directories and appending nothing to a file preserve. -/
structure Steady (good : Console → Prop) : Prop where
  warn : ∀ line, Preserves good (Job.act (·.warn line))
  createDirectory : ∀ path, Preserves good (Job.act (·.createDirectory path))
  touch : ∀ path, Preserves good (Job.act (·.append path ""))

theorem steady_output (output : String) : Steady (·.output = output) where
  warn _ _ _ same := same
  createDirectory path := preserves_alter (Disk.createDirectory · path) fun _ _ same _ => same
  touch path := preserves_alter (Disk.append · path "") fun _ _ same _ => same

theorem steady_holds (path : FilePath) (text : String) : Steady (·.disk.Holds path text) where
  warn _ _ _ held := held
  createDirectory other :=
    preserves_alter (Disk.createDirectory · other) fun _ _ => Disk.holds_of_createDirectory
  touch other :=
    preserves_alter (Disk.append · other "") fun _ _ => Disk.holds_of_append_nothing

namespace Preserves

variable {good : Console → Prop}

/-- Steps that may fail without halting are followed by further ones unless they do. -/
theorem bindOk {ε α β : Type} {job : ExceptT ε (Job (StateM Console)) α}
    {next : α → ExceptT ε (Job (StateM Console)) β} (first : Preserves good job.run)
    (later : ∀ value, Preserves good (next value).run) : Preserves good (job >>= next).run :=
  first.bind fun result => by
    cases result with
    | ok value => exact later value
    | error fault => exact pure _

theorem lift {ε α : Type} (result : Except ε α) :
    Preserves good (liftM result : ExceptT ε (Job (StateM Console)) α).run :=
  fun _ _ fine => fine

theorem liftJob {ε α : Type} {job : Job (StateM Console) α} (first : Preserves good job) :
    Preserves good (liftM job : ExceptT ε (Job (StateM Console)) α).run := by
  change Preserves good (Except.ok <$> job)
  rw [← bind_pure_comp]
  exact first.bind fun value => pure _

theorem entryAt (path : FilePath) : Preserves good (Settings.entryAt path).run :=
  (act_look path).bind fun found => by split <;> exact pure _

theorem fileText (path : FilePath) : Preserves good (Settings.fileText path).run :=
  (entryAt path).bindOk fun found => by split <;> exact pure _

theorem rootFrom (place : FilePath) (count : Nat) :
    Preserves good (Settings.rootFrom place count).run := by
  induction count generalizing place with
  | zero => exact pure _
  | succ count ih =>
      refine (entryAt _).bindOk fun found => ?_
      split
      case h_1 => exact pure _
      case h_2 => exact ih place.parent

theorem overridesIn (root : FilePath) : Preserves good (Settings.overridesIn root) :=
  read.bind fun host => (act_look _).bind fun found => by split <;> exact pure _

theorem ofFile (path : FilePath) (overrides : Overrides) :
    Preserves good (Settings.ofFile path overrides).run := by
  refine (fileText path).bindOk fun base => ?_
  split
  case h_1 =>
      exact (lift (Settings.parseFile _)).bindOk fun _ => (fileText _).bindOk fun beside => lift _
  case h_2 => exact pure _

theorem load (path : Option FilePath) : Preserves good (Settings.load path).run := by
  have root : Preserves good Settings.projectRoot.run :=
    (liftJob read).bindOk fun host => (rootFrom _ 5).bindOk fun found => pure _
  exact root.bindOk fun root =>
    (liftJob (overridesIn root)).bindOk fun overrides => ofFile _ overrides

section

variable (warn : ∀ line, Preserves good (Job.act (·.warn line)))
include warn

theorem refuse {α : Type} (reason : String) : Preserves good (Job.refuse reason : Job _ α) :=
  (warn _).bind fun _ => throw _

theorem loadOrRefuse (config : Option String) : Preserves good (Settings.loadOrRefuse config) := by
  refine (load _).bind fun found => ?_
  split
  case h_1 => exact pure _
  case h_2 | h_3 => exact refuse warn _

end

theorem provide {path : FilePath} (create : Preserves good (Job.act (·.createDirectory path))) :
    Preserves good (Job.provide path) := by
  refine create.bind fun created => ?_
  split
  case h_1 | h_2 => exact pure _
  case h_3 =>
      refine (attempt (act_look path)).bind fun found => ?_
      split
      case h_1 => exact pure _
      case h_2 => exact throw _

theorem provideAll {root : String} {names : List String}
    (create : ∀ inner, inner <:+ names →
      Preserves good (Job.act (·.createDirectory ⟨root, inner.reverse⟩))) :
    Preserves good (Job.provideAll root names) := by
  induction names with
  | nil => exact pure ()
  | cons name above ih =>
      have last := provide (create _ List.suffix_rfl)
      refine last.bind fun provided => ?_
      split
      case isTrue => exact pure ()
      case isFalse =>
          have rest := ih fun inner inside => create inner (inside.trans (List.suffix_cons _ _))
          refine rest.bind fun _ => last.bind fun provided => ?_
          split
          case isTrue => exact pure ()
          case isFalse => exact throw _

theorem makeDirectories {path : FilePath}
    (create : ∀ names, names <+: path.names →
      Preserves good (Job.act (·.createDirectory ⟨path.root, names⟩))) :
    Preserves good (Job.makeDirectories path) :=
  provideAll fun inner inside =>
    create inner.reverse (List.reverse_suffix.mp (by simpa using inside))

theorem prepare {settings : LogSettings}
    (create : ∀ path ∈ Log.file? settings, ∀ names, names <+: path.names →
      Preserves good (Job.act (·.createDirectory ⟨path.root, names⟩)))
    (touch : ∀ path ∈ Log.file? settings, Preserves good (Job.act (·.append path ""))) :
    Preserves good (Log.prepare settings) := by
  unfold Log.prepare
  split
  case h_1 => exact pure ()
  case h_2 path found =>
      have above : Preserves good (Job.makeDirectories path.parent) :=
        makeDirectories fun names inside =>
          create path found names (inside.trans (List.dropLast_prefix path.names))
      exact above.bind fun _ => attempt (touch path found)

theorem record {settings : LogSettings} (warn : ∀ line, Preserves good (Job.act (·.warn line)))
    (append : ∀ path ∈ Log.file? settings, ∀ text, Preserves good (Job.act (·.append path text)))
    (records : List Log.Record) : Preserves good (Log.record settings records) := by
  refine read.bind fun host => ?_
  induction records.filter (Log.wanted settings) with
  | nil => exact pure ()
  | cons first rest ih =>
      refine ((warn _).bind fun _ => ?_).bind fun _ => ih
      split
      case h_1 => exact pure ()
      case h_2 path found => exact attempt (append path found _)

end Preserves

/-- What is done for a log file, if there is one, preserves what is good. -/
structure Logs (log : Option FilePath) (good : Console → Prop) : Prop where
  warn : ∀ line, Preserves good (Job.act (·.warn line))
  createDirectory : ∀ path ∈ log, ∀ names, names <+: path.names →
    Preserves good (Job.act (·.createDirectory ⟨path.root, names⟩))
  append : ∀ path ∈ log, ∀ text, Preserves good (Job.act (·.append path text))

/-- Nothing is printed, and no file is touched but the log file. -/
theorem logs_sameBut (log : Option FilePath) (output : String) (disk : Disk) :
    Logs log fun console => console.output = output ∧ disk.SameBut log console.disk where
  warn _ _ _ fine := fine
  createDirectory path among names inside :=
    preserves_alter (Disk.createDirectory · ⟨path.root, names⟩) fun _ _ fine created =>
      ⟨fine.1, fine.2.createDirectory among inside created⟩
  append path among text :=
    preserves_alter (Disk.append · path text) fun _ _ fine appended =>
      ⟨fine.1, fine.2.change among appended⟩

theorem logs_disk (disk : Disk) : Logs none (·.disk = disk) where
  warn _ _ _ same := same
  createDirectory := nofun
  append := nofun

theorem Logs.orRefuse {good : Console → Prop} {settings : Settings}
    (logs : Logs (Log.file? settings.log) good) {α : Type} (noun : String) (path : FilePath)
    (load : FilePath → Option String → Except LoadFault α) (note : α → Log.Record) :
    Preserves good (Loading.orRefuse noun settings path load note) := by
  have read : Preserves good (Job.read? path) := by
    refine (Preserves.attempt (Preserves.act_look path)).bind fun found => ?_
    split
    case h_1 | h_2 => exact .pure _
    case h_3 => exact .throw _
  refine read.bind fun text => ?_
  split
  case h_1 =>
      split
      case isTrue => exact .throw _
      case isFalse => exact .refuse logs.warn _
  case h_2 => exact (Preserves.record logs.warn logs.append _).bind fun _ => .pure _

namespace Steady

open Preserves

variable {good : Console → Prop} (steady : Steady good)
include steady

theorem loadAndPrepare (config : Option String) :
    Preserves good (Settings.loadAndPrepare config) :=
  (loadOrRefuse steady.warn config).bind fun _ =>
    (prepare (fun _ _ _ _ => steady.createDirectory _) fun _ _ => steady.touch _).bind fun _ =>
      pure _

end Steady

end Console

namespace Log

/-- The log file, if there is to be one, is at hand. -/
def AtHand (settings : LogSettings) (disk : Disk) : Prop :=
  ∀ path, file? settings = some path → ∃ text, disk.Holds path text

variable {settings : LogSettings}

theorem atHand_of_prepare
    (prepared : console.run around (prepare settings) = (.ok (), reached)) :
    AtHand settings reached.disk := by
  intro path wanted
  rw [prepare, wanted] at prepared
  obtain ⟨_, between, made, appended⟩ := Console.run_bind_eq_ok_iff.mp prepared
  obtain ⟨disk, changed, rfl⟩ := Console.run_append_eq_ok_iff.mp appended
  obtain ⟨old, held⟩ := Disk.holds_of_change changed
  exact ⟨_, held⟩

theorem run_emit (atHand : AtHand settings console.disk) (line : String) :
    ∃ reached, console.run around (emit settings line) = (.ok (), reached) ∧
      reached.output = console.output ∧ AtHand settings reached.disk := by
  have noted : console.run around (Job.note line) =
      (.ok (), { console with errors := console.errors ++ (line ++ "\n") }) := rfl
  rw [emit, Console.run_bind_of_ok noted]
  split
  case h_1 => exact ⟨_, Console.run_pure _, rfl, atHand⟩
  case h_2 path wanted =>
      obtain ⟨text, held⟩ := atHand path wanted
      obtain ⟨disk, changed⟩ := Disk.exists_change_of_holds held (· ++ (line ++ "\n"))
      refine ⟨_, Console.run_append_eq_ok_iff.mpr ⟨disk, changed, rfl⟩, rfl, ?_⟩
      intro path' wanted'
      obtain rfl : path = path' := Option.some.inj (wanted.symm.trans wanted')
      obtain ⟨old, held⟩ := Disk.holds_of_change changed
      exact ⟨_, held⟩

theorem run_record (atHand : AtHand settings console.disk) (records : List Record) :
    ∃ reached, console.run around (record settings records) = (.ok (), reached) ∧
      reached.output = console.output ∧ AtHand settings reached.disk := by
  have host : console.run around read = (.ok (Console.host around), console) :=
    rfl
  rw [record, Console.run_bind_of_ok host]
  clear host
  generalize records.filter (wanted settings) = kept
  induction kept generalizing console with
  | nil => exact ⟨console, Console.run_pure (), rfl, atHand⟩
  | cons first rest ih =>
      obtain ⟨between, emitted, printed, atHand⟩ := run_emit atHand
        (lineOf settings (Console.host around).clock first)
      obtain ⟨reached, later, printed', atHand⟩ := ih atHand
      refine ⟨reached, ?_, printed'.trans printed, atHand⟩
      exact (Console.run_bind_of_ok emitted _).trans later

end Log

namespace Settings

theorem atHand_of_loadAndPrepare {config : Option String} {settings : Settings}
    (ready : console.run around (loadAndPrepare config) = (.ok settings, reached)) :
    Log.AtHand settings.log reached.disk := by
  obtain ⟨found, _, loaded, rest⟩ := Console.run_bind_eq_ok_iff.mp ready
  obtain ⟨_, _, prepared, told⟩ := Console.run_bind_eq_ok_iff.mp rest
  rw [Console.run_pure, Prod.mk.injEq, Except.ok.injEq] at told
  obtain ⟨rfl, rfl⟩ := told
  exact Log.atHand_of_prepare prepared

end Settings

namespace Loading

/-- A file with good records gives them to a command, which has printed nothing for them. -/
theorem run_orRefuse {α : Type} {noun text : String} {settings : Settings} {path : FilePath}
    {load : FilePath → Option String → Except LoadFault α} {note : α → Log.Record} {loaded : α}
    (held : console.disk.Holds path text) (accepted : load path (some text) = .ok loaded)
    (atHand : Log.AtHand settings.log console.disk) :
    ∃ reached, console.run around (orRefuse noun settings path load note) =
        (.ok loaded, reached) ∧ reached.output = console.output := by
  obtain ⟨reached, logged, printed, _⟩ := Log.run_record atHand [note loaded]
  refine ⟨reached, ?_, printed⟩
  rw [orRefuse, Console.run_bind_of_ok (Console.run_read held), accepted]
  exact (Console.run_bind_of_ok logged _).trans (Console.run_pure loaded)

theorem run_orRefuse_unlogged {α : Type} {noun text : String} {settings : Settings}
    {path : FilePath} {load : FilePath → Option String → Except LoadFault α}
    {note : α → Log.Record} {loaded : α} (held : console.disk.Holds path text)
    (accepted : load path (some text) = .ok loaded) (unlogged : Log.file? settings.log = none) :
    ∃ reached, console.run around (orRefuse noun settings path load note) =
        (.ok loaded, reached) ∧ reached.disk = console.disk := by
  have atHand : Log.AtHand settings.log console.disk := by
    intro _ wanted
    rw [unlogged] at wanted
    cases wanted
  obtain ⟨reached, ran, -⟩ := run_orRefuse held accepted atHand
  have logs : Console.Logs (Log.file? settings.log) (·.disk = console.disk) :=
    unlogged ▸ Console.logs_disk console.disk
  have kept := logs.orRefuse noun path load note around console rfl
  rw [ran] at kept
  exact ⟨reached, ran, kept⟩

end Loading

end NextOffer
