import NextOffer.Command.Run
import NextOffer.Proofs.Command.Inputs
import NextOffer.Proofs.Command.Pairs
import NextOffer.Proofs.ProfileDiff
import NextOffer.Proofs.Reloading

/-! # What simulations leave behind

A simulation that is refused has printed nothing and has touched no file but the log. One that is
asked for JSON prints nothing else, and leaves on the disk what the same simulation without JSON
leaves there. Only where the difference between two scores does not exist does the latter crash,
before it writes reports.
-/

namespace NextOffer

/-! ## Texts for terminals -/

theorem Text.controlLength_of_ne {c : Char} (plain : c ≠ '\x1b') (rest : List Char) :
    controlLength (c :: rest) = 0 := by
  cases rest with
  | nil => rfl
  | cons next rest => simp [controlLength, plain]

theorem Text.withoutControls_of_not_mem {text : String} (none : '\x1b' ∉ text.toList) :
    withoutControls text = text := by
  have kept {cs : List Char} (none : '\x1b' ∉ cs) : withoutControlsFrom 0 cs = cs := by
    induction cs with
    | nil => rfl
    | cons c rest ih =>
        rw [List.mem_cons, not_or] at none
        rw [withoutControlsFrom, controlLength_of_ne (Ne.symm none.1)]
        dsimp only
        rw [ih none.2]
  rw [withoutControls, kept none, String.ofList_toList]

/-- A JSON text comes through a terminal as it is. -/
theorem Json.withoutControls_text {form : Json.Form} (regular : form.Regular) (v : Json.Value) :
    Text.withoutControls (form.text v) = form.text v := by
  refine Text.withoutControls_of_not_mem fun member => ?_
  rw [Json.Form.text, String.toList_ofList] at member
  exact Json.Form.not_mem_chars regular v (by decide) (by decide) member

/-! ## Reports with JSON and without -/

namespace Console.Paired

theorem saveRanking (directory : FilePath) (customerId label : String)
    (recommendations : List Recommendation) :
    Paired (Report.saveRanking directory customerId label recommendations)
      (Report.saveRanking directory customerId label recommendations) :=
  (makeDirectories directory).bind fun _ => (write _ _).bind fun _ => pure _

theorem saveSimulation (directory : FilePath) (label : String) (simulation : Simulation) :
    Paired (Report.saveSimulation directory label simulation)
      (Report.saveSimulation directory label simulation) :=
  (makeDirectories directory).bind fun _ => (need _).bind fun _ =>
    (need _).bind fun _ => (write _ _).bind fun _ => pure _

theorem saveReports (settings : Settings) (simulation : Simulation) (directory : FilePath)
    (json json' : Bool) :
    Paired (Command.saveReports settings simulation directory json)
      (Command.saveReports settings simulation directory json') := by
  refine read.bind fun host => (saveRanking _ _ _ _).bind fun ranking => ?_
  refine (record _ _).bind fun _ => (saveSimulation _ _ _).bind fun report => ?_
  exact (record _ _).bind fun _ => tell _ json json'

theorem simulation (settings : Settings) (rules : List Rule) (products : List Product)
    (profile : Profile) (events : List Event) :
    Paired (Command.simulation settings rules products profile events)
      (Command.simulation settings rules products profile events) :=
  read.bind fun _ => (record _ _).bind fun _ => need _

theorem showSimulation (simulation : Simulation) (events : List Event) :
    Paired (Command.showSimulation simulation events)
      (Command.showSimulation simulation events) :=
  (say _ _).bind fun _ => (say _ _).bind fun _ => (need _).bind fun _ =>
    (say _ _).bind fun _ => (say _ _).bind fun _ => (say _ _).bind fun _ => say _ _

end Console.Paired

namespace Command

variable {around : Surroundings} {console final : Console}

/-- What a simulation is run on. -/
structure Inputs where
  settings : Settings
  rules : List Rule
  products : List Product
  profile : Profile
  events : List Event

/-- Load the files that a simulation is run on. -/
def loadFiles (options : SimulationOptions) (settings : Settings) :
    Job (StateM Console) Inputs := do
  let rules ← Loading.rulesFor settings options.rules
  let products ← Loading.productsFor settings options.products
  let profile ← Loading.profileFor settings options.profile
  let events ← eventsOf settings options
  return ⟨settings, rules, products, profile, events⟩

/-- Load the files unless the options contradict each other. -/
def loadInputs (options : SimulationOptions) (settings : Settings) :
    Job (StateM Console) Inputs := do
  if options.exampleName.isSome && options.events.isSome then
    Job.refuse "Use either --events or --example, not both."
  loadFiles options settings

/-- Read the settings and load the files. -/
def inputs (options : SimulationOptions) : Job (StateM Console) Inputs := do
  let settings ← Settings.loadOrRefuse options.config
  Log.prepare settings.log
  loadInputs options settings

/-- Print the simulation. -/
def display (options : SimulationOptions) (events : List Event) (simulation : Simulation) :
    Job (StateM Console) Unit :=
  if options.json then do
    let dump ← Job.need (simulation.dump .camel)
    Job.say (← Job.need (Json.Form.indentedLatin.render dump))
  else showSimulation simulation events

/-- Write reports if they are wanted. -/
def finish (options : SimulationOptions) (settings : Settings) (simulation : Simulation) :
    Job (StateM Console) Unit :=
  match reportDirectory settings options with
  | none => return ()
  | some directory => saveReports settings simulation directory options.json

/-- Run the simulation, print it, and write reports if they are wanted. -/
def present (options : SimulationOptions) (inputs : Inputs) : Job (StateM Console) Unit := do
  let simulation ←
    simulation inputs.settings inputs.rules inputs.products inputs.profile inputs.events
  display options inputs.events simulation
  finish options inputs.settings simulation

theorem runSimulate_eq (options : SimulationOptions) :
    runSimulate options = inputs options >>= present options := by
  unfold runSimulate inputs Settings.loadAndPrepare loadInputs loadFiles
  simp only [bind_assoc, pure_bind]
  refine bind_congr fun settings => bind_congr fun _ => ?_
  have presented (inputs : Inputs) : present options inputs = (do
      let simulation ←
        simulation inputs.settings inputs.rules inputs.products inputs.profile inputs.events
      if options.json then
        let dump ← Job.need (simulation.dump .camel)
        Job.say (← Job.need (Json.Form.indentedLatin.render dump))
      else showSimulation simulation inputs.events
      match reportDirectory inputs.settings options with
      | none => return ()
      | some directory => saveReports inputs.settings simulation directory options.json) := by
    refine bind_congr fun simulation => ?_
    unfold display
    split <;> simp only [bind_assoc] <;> rfl
  cases options.exampleName.isSome && options.events.isSome with
  | true =>
      simp only [if_true, bind_assoc, pure_bind]
      refine bind_congr fun _ => bind_congr fun rules => bind_congr fun products => ?_
      refine bind_congr fun profile => bind_congr fun events => ?_
      exact (presented ⟨settings, rules, products, profile, events⟩).symm
  | false =>
      simp only [Bool.false_eq_true, if_false, bind_assoc, pure_bind]
      refine bind_congr fun rules => bind_congr fun products => bind_congr fun profile => ?_
      refine bind_congr fun events => ?_
      exact (presented ⟨settings, rules, products, profile, events⟩).symm

/-- The log file that the settings name, if there are settings and they name one. -/
def configuredLog (console : Console) (around : Surroundings)
    (config : Option String) : Option FilePath :=
  match (console.run around (Settings.loadOrRefuse config)).1 with
  | .ok settings => Log.file? settings.log
  | .error _ => none

theorem configuredLog_of_ok {config : Option String} {settings : Settings} {reached : Console}
    (loaded : console.run around (Settings.loadOrRefuse config) =
      (.ok settings, reached)) :
    configuredLog console around config = Log.file? settings.log := by
  rw [configuredLog, loaded]

theorem loadFiles_logs (options : SimulationOptions) {settings : Settings}
    {good : Console → Prop} (logs : Console.Logs (Log.file? settings.log) good) :
    Console.Preserves good (loadFiles options settings) := by
  have load {α : Type} (noun : String) (path : FilePath)
      (read : FilePath → Option String → Except LoadFault α) (note : α → Log.Record) :
      Console.Preserves good (Loading.orRefuse noun settings path read note) :=
    logs.orRefuse noun path read note
  have events : Console.Preserves good (eventsOf settings options) := by
    unfold eventsOf
    split
    case h_1 => exact load _ _ _ _
    case h_2 =>
        split
        case h_1 => exact .pure _
        case h_2 => exact .refuse logs.warn _
  exact (load _ _ _ _).bind fun _ => (load _ _ _ _).bind fun _ => (load _ _ _ _).bind fun _ =>
    events.bind fun _ => .pure _

theorem loadInputs_logs (options : SimulationOptions) {settings : Settings}
    {good : Console → Prop} (logs : Console.Logs (Log.file? settings.log) good) :
    Console.Preserves good (loadInputs options settings) := by
  unfold loadInputs
  split
  case isTrue =>
      exact (Console.Preserves.refuse logs.warn _).bind fun _ => loadFiles_logs options logs
  case isFalse => exact loadFiles_logs options logs

/-- Getting the inputs prints nothing and touches nothing but the log file. -/
theorem inputs_leaves (options : SimulationOptions) {result : Except Halt Inputs}
    (ran : console.run around (inputs options) = (result, final)) :
    final.output = console.output ∧
      console.disk.SameBut (configuredLog console around options.config) final.disk := by
  have quiet : Console.Preserves
      (fun reached => reached.output = console.output ∧ reached.disk = console.disk)
      (Settings.loadOrRefuse options.config) :=
    .loadOrRefuse (fun _ _ _ fine => fine) _
  have settled := quiet around console ⟨rfl, rfl⟩
  rw [inputs, Console.run_bind] at ran
  split at ran
  case h_1 settings reached loaded =>
      rw [loaded] at settled
      rw [configuredLog_of_ok loaded]
      have logs := Console.logs_sameBut (Log.file? settings.log) console.output console.disk
      have later : Console.Preserves _ (Log.prepare settings.log >>= fun _ =>
          loadInputs options settings) :=
        (Console.Preserves.prepare logs.createDirectory fun path among =>
          logs.append path among "").bind fun _ => loadInputs_logs options logs
      have fine := later around reached
        ⟨settled.1, settled.2 ▸ Disk.SameBut.refl _ _⟩
      rwa [ran] at fine
  case h_2 halt reached loaded =>
      rw [loaded] at settled
      cases ran
      exact ⟨settled.1, settled.2 ▸ Disk.SameBut.refl _ _⟩

theorem settings_of_loadFiles {options : SimulationOptions} {settings : Settings}
    {found : Inputs} (ran : console.run around (loadFiles options settings) =
      (.ok found, final)) : found.settings = settings := by
  obtain ⟨_, _, _, ran⟩ := Console.run_bind_eq_ok_iff.mp ran
  obtain ⟨_, _, _, ran⟩ := Console.run_bind_eq_ok_iff.mp ran
  obtain ⟨_, _, _, ran⟩ := Console.run_bind_eq_ok_iff.mp ran
  obtain ⟨_, _, _, told⟩ := Console.run_bind_eq_ok_iff.mp ran
  rw [Console.run_pure, Prod.mk.injEq, Except.ok.injEq] at told
  rw [← told.1]

theorem settings_of_loadInputs {options : SimulationOptions} {settings : Settings}
    {found : Inputs} (ran : console.run around (loadInputs options settings) =
      (.ok found, final)) : found.settings = settings := by
  unfold loadInputs at ran
  split at ran
  case isTrue =>
      obtain ⟨_, _, _, ran⟩ := Console.run_bind_eq_ok_iff.mp ran
      exact settings_of_loadFiles ran
  case isFalse => exact settings_of_loadFiles ran

theorem configuredLog_of_inputs {options : SimulationOptions} {found : Inputs}
    (ran : console.run around (inputs options) = (.ok found, final)) :
    configuredLog console around options.config = Log.file? found.settings.log := by
  obtain ⟨settings, _, loaded, ran⟩ := Console.run_bind_eq_ok_iff.mp ran
  obtain ⟨_, _, _, ran⟩ := Console.run_bind_eq_ok_iff.mp ran
  rw [configuredLog_of_ok loaded, settings_of_loadInputs ran]

section

variable {settings : Settings} {rules : List Rule} {products : List Product} {profile : Profile}
  {events : List Event} {simulation : Simulation}

theorem simulation_logs {good : Console → Prop}
    (logs : Console.Logs (Log.file? settings.log) good) (rules : List Rule)
    (products : List Product) (profile : Profile) (events : List Event) :
    Console.Preserves good (Command.simulation settings rules products profile events) :=
  Console.Preserves.read.bind fun _ =>
    (Console.Preserves.record logs.warn logs.append _).bind fun _ => .need _

theorem run_of_simulation
    (ran : console.run around
      (Command.simulation settings rules products profile events) = (.ok simulation, final)) :
    Simulation.run rules products profile events around.clock settings.precision =
      .ok simulation := by
  have host : console.run around read = (.ok (Console.host around), console) :=
    rfl
  rw [Command.simulation, Console.run_bind_of_ok host] at ran
  obtain ⟨_, _, _, last⟩ := Console.run_bind_eq_ok_iff.mp ran
  obtain ⟨lifted, -⟩ := Console.run_need_eq_ok_iff.mp last
  exact Outcome.mapError_eq_ok_iff.mp lifted

section Made

variable {options : SimulationOptions} {found : Inputs} {loaded simulated : Console}
  (got : console.run around (inputs options) = (.ok found, loaded))
  (made : loaded.run around
    (Command.simulation found.settings found.rules found.products found.profile found.events) =
      (.ok simulation, simulated))
include got made

theorem made_logs : simulated.output = console.output ∧
    console.disk.SameBut (configuredLog console around options.config) simulated.disk := by
  obtain ⟨silent, untouched⟩ := inputs_leaves options got
  rw [configuredLog_of_inputs got] at untouched ⊢
  have logged := simulation_logs (Console.logs_sameBut _ console.output console.disk) found.rules
    found.products found.profile found.events around loaded ⟨silent, untouched⟩
  rw [made] at logged
  exact logged

/-- The way to the simulation is the same without JSON. -/
theorem run_without_json :
    console.run around (run (.simulate { options with json := false })) =
      simulated.run around (showSimulation simulation found.events >>= fun _ =>
        finish { options with json := false } found.settings simulation) := by
  rw [run, runSimulate_eq]
  exact (Console.run_bind_of_ok got _).trans (Console.run_bind_of_ok made _)

end Made

theorem run_showSimulation (simulation : Simulation) (events : List Event) :
    ∃ reached, console.run around (showSimulation simulation events) =
        (match Tables.profileDiff simulation.initial simulation.final
            simulation.initial.customerId with
          | .ok _ => .ok ()
          | .error fault => .error (.crashed (.arithmetic fault)), reached) ∧
      reached.disk = console.disk := by
  unfold showSimulation
  dsimp only
  rw [Console.run_bind_of_ok (Console.run_say _), Console.run_bind_of_ok (Console.run_say _)]
  cases Tables.profileDiff simulation.initial simulation.final simulation.initial.customerId with
  | ok table => exact ⟨_, rfl, rfl⟩
  | error fault => exact ⟨_, rfl, rfl⟩

theorem run_display_of_json {options : SimulationOptions} (json : options.json = true)
    (ran : console.run around (display options events simulation) = (.ok (), final)) :
    ∃ dump text, simulation.dump .camel = .ok dump ∧
      Json.Form.indentedLatin.render dump = .ok text ∧ final.disk = console.disk ∧
      final.output = console.output ++ text ++ "\n" := by
  rw [display, if_pos json] at ran
  obtain ⟨dump, _, first, later⟩ := Console.run_bind_eq_ok_iff.mp ran
  obtain ⟨dumped, rfl⟩ := Console.run_need_eq_ok_iff.mp first
  obtain ⟨text, _, second, said⟩ := Console.run_bind_eq_ok_iff.mp later
  obtain ⟨lifted, rfl⟩ := Console.run_need_eq_ok_iff.mp second
  have written := Outcome.mapError_eq_ok_iff.mp lifted
  rw [Console.run_say, (Json.Form.render_eq_ok_iff.mp written).2,
    Json.withoutControls_text Json.Form.regular_indentedLatin] at said
  cases said
  refine ⟨dump, text, dumped, written, rfl, ?_⟩
  rw [(Json.Form.render_eq_ok_iff.mp written).2, String.append_assoc]

theorem finish_prints_nothing {options : SimulationOptions} (json : options.json = true)
    (settings : Settings) (simulation : Simulation) (output : String) :
    Console.Preserves (·.output = output) (finish options settings simulation) := by
  have steady := Console.steady_output output
  have append (path : FilePath) (text : String) :
      Console.Preserves (·.output = output) (Job.act (·.append path text)) :=
    Console.preserves_alter (Disk.append · path text) fun _ _ same _ => same
  have write (path : FilePath) (text : String) :
      Console.Preserves (·.output = output) (Job.write path text) :=
    .attempt (Console.preserves_alter (Disk.write · path text) fun _ _ same _ => same)
  have directories (path : FilePath) :
      Console.Preserves (·.output = output) (Job.makeDirectories path) :=
    .makeDirectories fun _ _ => steady.createDirectory _
  have record (records : List Log.Record) :
      Console.Preserves (·.output = output) (Log.record settings.log records) :=
    .record steady.warn (fun path _ => append path) records
  unfold finish
  split
  case h_1 => exact .pure ()
  case h_2 directory _ =>
      have ranking (label : String) : Console.Preserves (·.output = output)
          (Report.saveRanking directory simulation.final.customerId label
            simulation.recommendations) :=
        (directories directory).bind fun _ => (write _ _).bind fun _ => .pure _
      have report (label : String) : Console.Preserves (·.output = output)
          (Report.saveSimulation directory label simulation) :=
        (directories directory).bind fun _ => (Console.Preserves.need _).bind fun _ =>
          (Console.Preserves.need _).bind fun _ => (write _ _).bind fun _ => .pure _
      refine Console.Preserves.read.bind fun host => (ranking _).bind fun _ => ?_
      refine (record _).bind fun _ => (report _).bind fun _ => (record _).bind fun _ => ?_
      rw [if_pos json]
      exact steady.warn _

end

theorem paired_finish (options options' : SimulationOptions) {settings : Settings}
    (same : reportDirectory settings options = reportDirectory settings options')
    (simulation : Simulation) :
    Console.Paired (finish options settings simulation) (finish options' settings simulation) := by
  unfold finish
  rw [same]
  split
  case h_1 => exact .pure ()
  case h_2 => exact .saveReports _ _ _ _ _

/-- What comes after the inputs may crash and does not refuse. -/
theorem paired_present (options : SimulationOptions) (inputs : Inputs) :
    Console.Paired (present options inputs) (present options inputs) := by
  refine (Console.Paired.simulation _ _ _ _ _).bind fun simulation => ?_
  refine Console.Paired.bind ?_ fun _ => paired_finish options options rfl simulation
  unfold display
  split
  case isTrue =>
      exact (Console.Paired.need _).bind fun dump => (Console.Paired.need _).bind fun text =>
        .say _ _
  case isFalse => exact .showSimulation _ _

theorem inputs_of_refused {options : SimulationOptions}
    (ran : console.run around (run (.simulate options)) = (.error .refused, final)) :
    console.run around (inputs options) = (.error .refused, final) := by
  rw [run, runSimulate_eq, Console.run_bind] at ran
  split at ran
  case h_1 found loaded _ =>
      obtain ⟨_, _, _, presented, _, _, never⟩ :=
        paired_present options found around loaded loaded rfl
      rw [presented] at ran
      exact absurd (congrArg Prod.fst ran) never
  case h_2 halt reached got =>
      cases ran
      exact got

/-- The difference of every score exists and can be written. -/
def TellsDifference (simulation : Simulation) : Prop :=
  ∀ name ∈ ProfileDiff.scoreNames simulation.initial simulation.final,
    ProfileDiff.Tells simulation.initial simulation.final name

theorem isWritable_score {profile : Profile} {spelling : Spelling}
    (writable : (profile.toJson spelling).isWritable = true) (name : String) :
    (profile.score name).isWritable = true := by
  have scores : (Json.Value.ofNumbers profile.scores).isWritable = true :=
    Json.Value.entriesWritable_iff.mp writable ("scores", .ofNumbers profile.scores) (by simp)
  unfold Profile.score
  split
  case h_1 => exact Number.isWritable_of_isZero rfl
  case h_2 x found =>
      split
      case isTrue => exact Number.isWritable_of_isZero rfl
      case isFalse =>
          exact Json.Value.entriesWritable_iff.mp scores (name, .number x)
            (List.mem_map.mpr ⟨(name, x), Fields.mem_of_get? found, rfl⟩)

/-- Profiles whose simulation has a dump can be shown when their difference can. -/
theorem table_returns_of_dump {simulation : Simulation} {dump : Json.Value}
    (dumped : simulation.dump .camel = .ok dump) (writable : dump.isWritable = true) :
    (∃ table, Tables.profileDiff simulation.initial simulation.final
      simulation.initial.customerId = .ok table) ↔ TellsDifference simulation := by
  unfold Simulation.dump at dumped
  split at dumped
  case isFalse => cases dumped
  case isTrue =>
      cases dumped
      have parts := Json.Value.entriesWritable_iff.mp writable
      have initial := parts ("originalProfile", simulation.initial.toJson .camel) (.head _)
      have final := parts ("newProfile", simulation.final.toJson .camel) (.tail _ (.head _))
      exact ProfileDiff.table_returns_iff (isWritable_score initial) (isWritable_score final)

/-- A simulation that is refused prints nothing, and nothing is touched but the log file and the
    directories above it. A simulation with JSON prints the dump and a line end. Without JSON it
    leaves the same disk if the difference of each score exists and can be written, and otherwise
    crashes without reports. -/
theorem simulate_leaves (options : SimulationOptions) (console : Console) (around : Surroundings) :
    (∀ final, console.run around (run (.simulate options)) = (.error .refused, final) →
      final.output = console.output ∧
      console.disk.SameBut (configuredLog console around options.config) final.disk) ∧
    ∀ final, options.json = true →
      console.run around (run (.simulate options)) = (.ok (), final) →
      ∃ found loaded simulation dump text,
        console.run around (inputs options) = (.ok found, loaded) ∧
        Simulation.run found.rules found.products found.profile found.events around.clock
          found.settings.precision = .ok simulation ∧
        simulation.dump .camel = .ok dump ∧
        Json.Form.indentedLatin.render dump = .ok text ∧
        final.output = console.output ++ text ++ "\n" ∧
        (TellsDifference simulation →
          ∃ plain, console.run around (run (.simulate { options with json := false })) =
              (.ok (), plain) ∧ plain.disk = final.disk) ∧
        (¬ TellsDifference simulation →
          ∃ fault plain,
            console.run around (run (.simulate { options with json := false })) =
              (.error (.crashed (.arithmetic fault)), plain) ∧
            console.disk.SameBut (configuredLog console around options.config) plain.disk) := by
  refine ⟨fun final ran => inputs_leaves options (inputs_of_refused ran), fun final json ran => ?_⟩
  rw [run, runSimulate_eq] at ran
  obtain ⟨found, loaded, got, presented⟩ := Console.run_bind_eq_ok_iff.mp ran
  obtain ⟨simulation, simulated, made, ran⟩ := Console.run_bind_eq_ok_iff.mp presented
  obtain ⟨_, displayed, shown, finished⟩ := Console.run_bind_eq_ok_iff.mp ran
  obtain ⟨dump, text, dumped, written, disk, printed⟩ := run_display_of_json json shown
  have tables := table_returns_of_dump dumped (Json.Form.render_eq_ok_iff.mp written).1
  have plain := run_without_json got made
  have logged := made_logs got made
  obtain ⟨told, telling, sameDisk⟩ := @run_showSimulation around simulated simulation
    found.events
  refine ⟨found, loaded, simulation, dump, text, got, run_of_simulation made, dumped, written, ?_,
    fun tells => ?_, fun silent => ?_⟩
  · have kept := finish_prints_nothing json found.settings simulation displayed.output around
      displayed rfl
    rw [finished] at kept
    rw [kept, printed, logged.1]
  · obtain ⟨table, tabled⟩ := tables.mpr tells
    rw [tabled] at telling
    have reports : Console.Paired (finish options found.settings simulation)
        (finish { options with json := false } found.settings simulation) :=
      paired_finish options { options with json := false } rfl simulation
    obtain ⟨result, ended, ended', saved, saved', same, -⟩ :=
      reports around displayed told (disk.trans sameDisk.symm)
    rw [finished] at saved
    cases saved
    exact ⟨ended', by rw [plain, Console.run_bind_of_ok telling, saved'], same.symm⟩
  · cases tabled : Tables.profileDiff simulation.initial simulation.final
        simulation.initial.customerId with
    | ok table => exact absurd (tables.mp ⟨table, tabled⟩) silent
    | error fault =>
        rw [tabled] at telling
        refine ⟨fault, told, by rw [plain, Console.run_bind, telling], ?_⟩
        rw [sameDisk]
        exact logged.2

/-! ## A donation

The score of a donor is an integer beyond the floating point values. After a donation the half of
a coin is left of it, a floating point value. The difference between the two does not exist.
-/

def fortune : Int := Nat.pow 10 400

def half : Number := .real (Binary64.ofDecimal false ⟨5, -1⟩)

def donationJson : Json.Value := .object [
  ("id", .string "donation"), ("name", .string "Donation"), ("event", .string "SALARY_CREDIT"),
  ("status", .string "ACTIVE"),
  ("effects", .array [
    .object [("type", .string "scoreDelta"), ("score", .string "wealth"),
      ("delta", .int (-fortune))],
    .object [("type", .string "scoreDelta"), ("score", .string "wealth"),
      ("delta", .string "0.5")]])]

def donation : Rule :=
  { id := "donation", name := "Donation", status := .active, event := .salaryCredit
    effects := [.scoreDelta (some "wealth") (some (.int (-fortune))),
      .scoreDelta (some "wealth") (some half)] }

def donor : Profile := { customerId := "C1", scores := [("wealth", .int fortune)] }

def donationText : String := Json.Form.indented.text (.array [donationJson])

def donorText : String := Json.Form.indented.text (donor.toJson .camel)

def hall : Console := .project [("rules.json", .file donationText),
  ("products.json", .file "[]"), ("profile.json", .file donorText)]

/-- Simulate what happens to the donor in an example, with reports. -/
def visit (exampleName : String) (json : Bool) : SimulationOptions where
  rules := some "rules.json"
  products := some "products.json"
  profile := some "profile.json"
  exampleName := some exampleName
  outputDir := some "out"
  json := json

theorem isDate_morning : Calendar.IsDate 2026 2 5 := by decide

def morning : Surroundings := .bare (.midnight ⟨2026, 2, 5, isDate_morning⟩ none)

theorem natAbs_fortune_lt : fortune.natAbs < 10 ^ digitLimit := by decide +kernel

theorem rules_donation (path : FilePath) :
    Loading.rules path (some donationText) = .ok [donation] := by
  have exact : (Json.Value.array [donationJson]).Everywhere Json.Value.IsExact := by
    simp [donationJson, Json.Value.int, Json.Value.IsExact, Json.Value.HasDistinctNames,
      Json.Value.HasShortInteger, Json.Value.HasNoReal, Fields.names, natAbs_fortune_lt]
  have read : Loading.readValue path (some donationText) = .ok (.array [donationJson]) :=
    Loading.readValue_text path Json.Form.regular_indented exact.legible (by decide)
  rw [Loading.rules, Loading.readArray, read]
  rfl

theorem products_nothing (path : FilePath) : Loading.products path (some "[]") = .ok [] := rfl

theorem profile_donor (path : FilePath) : Loading.profile path (some donorText) = .ok donor := by
  have exact : donor.IsExact := by
    constructor <;>
      simp [donor, Json.Value.ofNumbers, Fields.mapValues, Json.Value.IsExact,
        Json.Value.HasDistinctNames, Json.Value.HasShortInteger, Json.Value.HasNoReal,
        Fields.names, natAbs_fortune_lt]
  have room : donor.fits 0 = true := by decide
  obtain ⟨text, written, loaded⟩ :=
    exact.loads room (by decide) path Json.Form.regular_indented .camel
  rwa [(Json.Form.render_eq_ok_iff.mp written).2] at loaded

/-- The inputs of a visit to the hall. -/
def hallInputs (events : List Event) : Inputs := ⟨{}, [donation], [], donor, events⟩

section

variable {name : String} {events : List Event} (known : Event.exampleSet name = .ok events)
include known

theorem inputs_hall (json : Bool) :
    ∃ loaded, hall.run morning (inputs (visit name json)) = (.ok (hallInputs events), loaded) ∧
      loaded.disk = hall.disk := by
  have ready : hall.run morning (Settings.loadOrRefuse none) = (.ok {}, hall) := rfl
  have prepared : hall.run morning (Log.prepare {}) = (.ok (), hall) := rfl
  have load {α : Type} {noun text : String} {path : FilePath} {reached : Console}
      {read : FilePath → Option String → Except LoadFault α} {found : α} {note : α → Log.Record}
      (accepted : read path (some text) = .ok found) (held : hall.disk.Holds path text)
      (same : reached.disk = hall.disk) :
      ∃ next, reached.run morning (Loading.orRefuse noun {} path read note) =
        (.ok found, next) ∧ next.disk = hall.disk := by
    rw [← same] at held ⊢
    exact Loading.run_orRefuse_unlogged held accepted rfl
  obtain ⟨first, rules, same⟩ : ∃ next,
      hall.run morning (Loading.rulesFor {} (some "rules.json")) = (.ok [donation], next) ∧
        next.disk = hall.disk :=
    load (rules_donation _) rfl rfl
  obtain ⟨second, products, same⟩ : ∃ next,
      first.run morning (Loading.productsFor {} (some "products.json")) = (.ok [], next) ∧
        next.disk = hall.disk :=
    load (products_nothing _) rfl same
  obtain ⟨third, profile, same⟩ : ∃ next,
      second.run morning (Loading.profileFor {} (some "profile.json")) = (.ok donor, next) ∧
        next.disk = hall.disk :=
    load (profile_donor _) rfl same
  have told : third.run morning (eventsOf {} (visit name json)) = (.ok events, third) := by
    unfold eventsOf
    simp only [visit, known]
    rfl
  refine ⟨third, ?_, same⟩
  refine (Console.run_bind_of_ok ready _).trans ((Console.run_bind_of_ok prepared _).trans ?_)
  refine (Console.run_bind_of_ok rules _).trans ((Console.run_bind_of_ok products _).trans ?_)
  exact (Console.run_bind_of_ok profile _).trans ((Console.run_bind_of_ok told _).trans rfl)

theorem run_hall (json : Bool) :
    ∃ final, hall.run morning (run (.simulate (visit name json))) =
        ((hall.run morning (present (visit name json) (hallInputs events))).1, final) ∧
      final.disk =
        (hall.run morning (present (visit name json) (hallInputs events))).2.disk := by
  obtain ⟨loaded, got, same⟩ := inputs_hall known json
  obtain ⟨result, final, final', presented, presented', disk, -⟩ :=
    paired_present (visit name json) (hallInputs events) morning loaded hall same
  refine ⟨final, ?_, ?_⟩
  · rw [run, runSimulate_eq, Console.run_bind_of_ok got, presented, presented']
  · rw [presented', disk]

end

/-- Two sources of events are refused. A payment of rent does not change the donor, who is told as
JSON and in tables, with the same reports. -/
theorem simulate_leaves_donor :
    (∃ refused, hall.run morning
        (run (.simulate { visit "renter" true with events := some "events.json" })) =
          (.error .refused, refused) ∧
      refused.output = "" ∧ hall.disk.SameBut none refused.disk) ∧
    ∃ (told shown : Console) (simulation : Simulation) (dump : Json.Value) (text : String),
      hall.run morning (run (.simulate (visit "renter" true))) = (.ok (), told) ∧
      hall.run morning (run (.simulate (visit "renter" false))) = (.ok (), shown) ∧
      simulation.dump .camel = .ok dump ∧ Json.Form.indentedLatin.render dump = .ok text ∧
      told.output = text ++ "\n" ∧ shown.disk = told.disk := by
  have unlogged : configuredLog hall morning none = none := rfl
  have known : Event.exampleSet "renter" = .ok Event.renter := rfl
  constructor
  · obtain ⟨refused, ran⟩ : ∃ refused, hall.run morning
        (run (.simulate { visit "renter" true with events := some "events.json" })) =
          (.error .refused, refused) := ⟨_, rfl⟩
    have leaves := (simulate_leaves _ hall morning).1 refused ran
    exact ⟨refused, ran, leaves.1, unlogged ▸ leaves.2⟩
  · obtain ⟨told, ran, -⟩ := run_hall known true
    obtain ⟨shown, plain, -⟩ := run_hall known false
    have fine : ∀ json, (hall.run morning
        (present (visit "renter" json) (hallInputs Event.renter))).1 = .ok () := by decide +kernel
    rw [fine] at ran plain
    obtain ⟨_, _, simulation, dump, text, -, -, dumped, written, printed, same, crashed⟩ :=
      (simulate_leaves (visit "renter" true) hall morning).2 told rfl ran
    have omitted : { visit "renter" true with json := false } = visit "renter" false := rfl
    rw [omitted, plain] at same crashed
    by_cases tells : TellsDifference simulation
    · obtain ⟨_, ⟨⟩, disk⟩ := same tells
      exact ⟨told, shown, simulation, dump, text, ran, plain, dumped, written, printed, disk⟩
    · obtain ⟨_, _, ⟨⟩, -⟩ := crashed tells

/-- After the donation there are reports with JSON. Without JSON the command crashes before them. -/
theorem simulate_loses_reports :
    ∃ told crashed,
      hall.run morning (run (.simulate (visit "high-salary" true))) = (.ok (), told) ∧
      told.disk.entries.names = ["/config", "/config/default.toml", "rules.json",
        "products.json", "profile.json", "out",
        "out/recommendations_C1_2026-02-05.csv", "out/simulation_C1_2026-02-05.json"] ∧
      hall.run morning (run (.simulate (visit "high-salary" false))) =
        (.error (.crashed (.arithmetic .integerTooLarge)), crashed) ∧
      crashed.disk.entries.names = ["/config", "/config/default.toml", "rules.json",
        "products.json", "profile.json"] := by
  have known : Event.exampleSet "high-salary" = .ok Event.highSalary := rfl
  have fine : (hall.run morning
      (present (visit "high-salary" true) (hallInputs Event.highSalary))).1 = .ok () := by
    decide +kernel
  have wrong : (hall.run morning
      (present (visit "high-salary" false) (hallInputs Event.highSalary))).1 =
        .error (.crashed (.arithmetic .integerTooLarge)) := by
    decide +kernel
  obtain ⟨told, ran, written⟩ := run_hall known true
  obtain ⟨crashed, plain, missing⟩ := run_hall known false
  rw [fine] at ran
  rw [wrong] at plain
  refine ⟨told, crashed, ran, ?_, plain, ?_⟩
  · rw [written]
    decide +kernel
  · rw [missing]
    decide +kernel

end Command

end NextOffer
