import NextOffer.Batch
import NextOffer.Command.Basic
import NextOffer.Command.Inputs
import NextOffer.Preview
import NextOffer.Report.Files
import NextOffer.Simulation.Journal
import NextOffer.Tables

/-! # Running commands

A command reads the settings, makes the log ready, loads its files, and prints what it
finds. Reports are written last. Whatever is wrong with settings, options or files is
told at the output for errors, and nothing is printed then.
-/

namespace NextOffer

variable {m : Type → Type} [Monad m]

namespace Settings

def truthWord (value : Bool) : String := if value then "True" else "False"

/-- The most important settings, line by line. -/
def summary (settings : Settings) : List String := [
  s!"  Seed directory:   {settings.places.seedDir}",
  s!"  Rules file:       {settings.places.rulesFile}",
  s!"  Products file:    {settings.places.productsFile}",
  s!"  Output directory: {settings.places.outputDir}",
  s!"  Score precision:  {settings.precision}",
  s!"  Log level:        {settings.log.level.name}",
  s!"  Debug mode:       {truthWord settings.debug}"]

end Settings

namespace Command

def runValidateConfig (config : Option String) (full : Bool) : Job m Unit := do
  let settings ← Settings.loadOrRefuse config
  Job.say "Configuration validated successfully."
  Job.say ""
  settings.summary.forM Job.say
  if full then
    Job.say ""
    Job.say "Full config (JSON):"
    Job.say (← Job.need (Json.Form.indentedLatin.render settings.toJson))
  Job.say ""
  Job.say "[OK] Config valid."

def eventsOf (settings : Settings) (options : SimulationOptions) : Job m (List Event) :=
  match options.exampleName with
  | none => Loading.eventsFor settings options.events
  | some name =>
      match Event.exampleSet name with
      | .ok events => return events
      | .error fault => Job.refuse fault.message

def simulation (settings : Settings) (rules : List Rule) (products : List Product)
    (profile : Profile) (events : List Event) : Job m Simulation := do
  let clock := (← read).clock
  Log.record settings.log
    (Simulation.journal rules products profile events clock settings.precision)
  Job.need (Simulation.run rules products profile events clock settings.precision)

def showSimulation (simulation : Simulation) (events : List Event) : Job m Unit := do
  let customerId := simulation.initial.customerId
  Job.say s!"Simulating {events.length} event(s) for customer {customerId}"
  Job.say (Tables.trace simulation.trace)
  Job.say (← Job.need (Tables.profileDiff simulation.initial simulation.final customerId))
  Job.say (Tables.ranking simulation.recommendations true)
  Job.say ""
  Job.say simulation.narrative

/-- The directory for reports, if they are wanted. -/
def reportDirectory (settings : Settings) (options : SimulationOptions) : Option FilePath :=
  let configured := if options.saveReports then some settings.places.outputDir else none
  ((options.outputDir.or configured).filter (· ≠ "")).map FilePath.ofText

/-- Write both reports. What was written is told where it does not mix with JSON. -/
def saveReports (settings : Settings) (simulation : Simulation) (directory : FilePath)
    (json : Bool) : Job m Unit := do
  let label := (← read).clock.date.text
  let ranking ← Report.saveRanking directory simulation.final.customerId label
    simulation.recommendations
  Log.record settings.log [Report.rankingNote ranking simulation.recommendations.length]
  let report ← Report.saveSimulation directory label simulation
  Log.record settings.log [Report.simulationNote report]
  let line := s!"[OK] Reports written: {ranking.text}, {report.text}"
  if json then Job.complain line else Job.say line

/-- Run a simulation, show it, and write reports if they are wanted. -/
def runSimulate (options : SimulationOptions) : Job m Unit := do
  let settings ← Settings.loadAndPrepare options.config
  if options.exampleName.isSome && options.events.isSome then
    Job.refuse "Use either --events or --example, not both."
  let rules ← Loading.rulesFor settings options.rules
  let products ← Loading.productsFor settings options.products
  let profile ← Loading.profileFor settings options.profile
  let events ← eventsOf settings options
  let simulation ← simulation settings rules products profile events
  if options.json then
    let dump ← Job.need (simulation.dump .camel)
    Job.say (← Job.need (Json.Form.indentedLatin.render dump))
  else showSimulation simulation events
  match reportDirectory settings options with
  | none => return ()
  | some directory => saveReports settings simulation directory options.json

def statusOf (options : PreviewOptions) : Job m (Option Status) :=
  match options.status with
  | none => return none
  | some word =>
      match Status.ofWord? (Text.latinCapitals word) with
      | some status => return some status
      | none =>
          let words := ", ".intercalate (Status.all.map Status.word)
          Job.refuse s!"Unknown status '{word}'. Must be one of: {words}."

/-- The rules of a preview: those of a status, if there is one, by falling priority. -/
def previewed (status : Option Status) (rules : List Rule) : List Rule :=
  (rules.filter fun rule => status.all (rule.status = ·)).mergeSort fun a b =>
    decide (b.priority ≤ a.priority)

/-- Show a rule: status, priority and name, and its preview below. -/
def previewRule (rule : Rule) : Job m Unit := do
  let priority ← Job.need (Number.int rule.priority).plain
  Job.say s!"[{Text.left 8 rule.status.word}] {Text.right 3 priority}  {rule.name}"
  Job.say s!"    {← Job.need rule.preview}"

def runPreviewRules (options : PreviewOptions) : Job m Unit := do
  let settings ← Settings.loadAndPrepare options.config
  let status ← statusOf options
  let rules ← Loading.rulesFor settings options.rules
  match previewed status rules with
  | [] => Job.say "(no rules to preview)"
  | selected => selected.forM previewRule

def runRecommend (options : RankingOptions) : Job m Unit := do
  let settings ← Settings.loadAndPrepare options.config
  let products ← Loading.productsFor settings options.products
  let profile ← Loading.profileFor settings options.profile
  Log.record settings.log (Ranking.journal products profile settings.precision)
  let ranked ← Job.need (Ranking.recommend products profile settings.precision)
  Job.say s!"Recommendations for customer {profile.customerId}"
  Job.say (Tables.ranking ranked true)

def vocabularyLines : List String :=
  let scores := ", ".intercalate knownScores
  "Events:" :: EventKind.all.map (fun kind => s!"  {Text.left 18 kind.word} {kind.label}") ++
    "" :: "Operators:" ::
      Operator.menu.map (fun sign => s!"  {Text.left 18 sign.word} {sign.label}") ++
    "" :: "Effect types:" :: EffectKind.all.map (fun kind => s!"  {kind.word}") ++
    "" :: "Condition fields:" :: fieldSuggestions.map (fun field =>
      s!"  {Text.left 42 field.path} {Text.left 26 field.label} ({field.valueKind})") ++
    ["", s!"Known scores: {scores}"]

/-- Show the words that authors of rules can use. -/
def runVocabulary : Job m Unit := vocabularyLines.forM Job.say

def run : Command → Job m Unit
  | validateConfig config full => runValidateConfig config full
  | simulate options => runSimulate options
  | previewRules options => runPreviewRules options
  | recommend options => runRecommend options
  | vocabulary => runVocabulary

end Command

end NextOffer
