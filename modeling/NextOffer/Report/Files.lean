import NextOffer.Host
import NextOffer.Log.Output
import NextOffer.Report.Csv
import NextOffer.Report.Json

/-! # Report files

A ranking is kept as comma separated values and a simulation as JSON, each in a file
that carries the customer and the date in its name.
-/

namespace NextOffer.Report

variable {m : Type → Type} [Monad m]

def logger : String := "rule_studio.recommendations.reporter"

def rankingPath (directory : FilePath) (customerId label : String) : FilePath :=
  directory.join (FilePath.ofText s!"recommendations_{customerId}_{label}.csv")

def simulationPath (directory : FilePath) (customerId label : String) : FilePath :=
  directory.join (FilePath.ofText s!"simulation_{customerId}_{label}.json")

/-- Write a ranking into a directory, which is made when it is absent. -/
def saveRanking (directory : FilePath) (customerId label : String)
    (recommendations : List Recommendation) : Job m FilePath := do
  Job.makeDirectories directory
  let path := rankingPath directory customerId label
  Job.write path (Csv.text recommendations)
  return path

/-- Write a simulation into a directory, which is made when it is absent. -/
def saveSimulation (directory : FilePath) (label : String) (simulation : Simulation) :
    Job m FilePath := do
  Job.makeDirectories directory
  let path := simulationPath directory simulation.final.customerId label
  let report ← Job.need (simulation.report label)
  Job.write path (← Job.need (Json.Form.indented.render report))
  return path

def rankingNote (path : FilePath) (count : Nat) : Log.Record :=
  Log.Record.info logger s!"Recommendation CSV written: {path.text} ({count} rows)"

def simulationNote (path : FilePath) : Log.Record :=
  Log.Record.info logger s!"Simulation JSON written: {path.text}"

end NextOffer.Report
