import NextOffer.Batch
import NextOffer.Binary64.Arithmetic
import NextOffer.Binary64.Basic
import NextOffer.Binary64.Decimal
import NextOffer.Binary64.Notation
import NextOffer.Binary64.Rounded
import NextOffer.Calendar.Data
import NextOffer.Calendar.Date
import NextOffer.Calendar.Iso
import NextOffer.Calendar.Timestamp
import NextOffer.Command.Basic
import NextOffer.Command.Inputs
import NextOffer.Command.Run
import NextOffer.Condition.Comparison
import NextOffer.Console
import NextOffer.Disk
import NextOffer.Evaluation.Basic
import NextOffer.Evaluation.Effect
import NextOffer.Evaluation.Journal
import NextOffer.Event
import NextOffer.Fault
import NextOffer.Fields
import NextOffer.FilePath
import NextOffer.Host
import NextOffer.Json.Display
import NextOffer.Json.Parser
import NextOffer.Json.Printer
import NextOffer.Json.Value
import NextOffer.Loading
import NextOffer.Log.Conversion
import NextOffer.Log.Failure
import NextOffer.Log.Line
import NextOffer.Log.Message
import NextOffer.Log.Output
import NextOffer.Log.Record
import NextOffer.Log.Slot
import NextOffer.Log.Time
import NextOffer.Main
import NextOffer.Narrative
import NextOffer.Number
import NextOffer.Path
import NextOffer.Preview
import NextOffer.Product
import NextOffer.Profile
import NextOffer.ProfileDiff
import NextOffer.Ranking.Basic
import NextOffer.Ranking.Journal
import NextOffer.Ranking.Score
import NextOffer.Recommendation
import NextOffer.Report.Csv
import NextOffer.Report.Files
import NextOffer.Report.Json
import NextOffer.Rounding
import NextOffer.Rule
import NextOffer.Schema.Issue
import NextOffer.Schema.Numeral
import NextOffer.Schema.Reader
import NextOffer.Settings.Basic
import NextOffer.Settings.Files
import NextOffer.Settings.Layers
import NextOffer.Settings.Setting
import NextOffer.Simulation.Basic
import NextOffer.Simulation.Journal
import NextOffer.Sorting.Basic
import NextOffer.Sorting.Insertion
import NextOffer.Sorting.Merge
import NextOffer.Tables
import NextOffer.Text.Blank
import NextOffer.Text.Columns
import NextOffer.Text.Control
import NextOffer.Text.Digit
import NextOffer.Text.LetterCase
import NextOffer.Text.Printable
import NextOffer.Text.Quoted
import NextOffer.Text.Ranges
import NextOffer.Toml.Document
import NextOffer.Toml.Lexical
import NextOffer.Vocabulary
import NextOffer.Workbench
import NextOffer.Proofs.Evaluation.Turn
import NextOffer.Proofs.Evaluation.Agenda
import NextOffer.Proofs.Evaluation.Splitting
import NextOffer.Proofs.Evaluation.TurnOrder
import NextOffer.Proofs.Evaluation.Replay
import NextOffer.Proofs.Binary64.Range
import NextOffer.Proofs.Binary64.Shortest
import NextOffer.Proofs.Digits
import NextOffer.Proofs.Binary64.Notation
import NextOffer.Proofs.Number.Line
import NextOffer.Proofs.Number.Conversion
import NextOffer.Proofs.Number.Text
import NextOffer.Proofs.Condition.Agreement
import NextOffer.Proofs.Number
import NextOffer.Proofs.Evaluation.Overflow
import NextOffer.Proofs.Sorting.Stretch
import NextOffer.Proofs.Sorting.Merge
import NextOffer.Proofs.Sorting.Runs
import NextOffer.Proofs.Ranking.Order
import NextOffer.Proofs.Ranking.Arrangement
import NextOffer.Proofs.Ranking.Scoring
import NextOffer.Proofs.Ranking.Overflow
import NextOffer.Proofs.Fields
import NextOffer.Proofs.Json.Within
import NextOffer.Proofs.Json.Strings
import NextOffer.Proofs.Json.Reading
import NextOffer.Proofs.Json.Texts
import NextOffer.Proofs.Calendar
import NextOffer.Proofs.WellFormed
import NextOffer.Proofs.Evaluation.Change
import NextOffer.Proofs.Evaluation.Points
import NextOffer.Proofs.Evaluation.Ledger
import NextOffer.Proofs.Evaluation.Moment
import NextOffer.Proofs.Evaluation.Evolution
import NextOffer.Proofs.Evaluation.EventOrder
import NextOffer.Proofs.Writing
import NextOffer.Proofs.Reloading
import NextOffer.Proofs.Loading
import NextOffer.Proofs.Json.EntryOrder
import NextOffer.Proofs.Evaluation.EntryOrder
import NextOffer.Proofs.Condition.Incomplete
import NextOffer.Proofs.Evaluation.Inert
import NextOffer.Proofs.Ranking.Removal
import NextOffer.Proofs.Ranking.Eligibility
import NextOffer.Proofs.Evaluation.Description
import NextOffer.Proofs.Path
import NextOffer.Proofs.Text
import NextOffer.Proofs.Evaluation.Visibility
import NextOffer.Proofs.LetterCase
import NextOffer.Proofs.Condition.Containment
import NextOffer.Proofs.Numbering
import NextOffer.Proofs.Disk
import NextOffer.Proofs.Console
import NextOffer.Proofs.Csv
import NextOffer.Proofs.Command.Inputs
import NextOffer.Proofs.Command.Preview
import NextOffer.Proofs.Preview
import NextOffer.Proofs.LoadedNumbers
import NextOffer.Proofs.ScoreChange
import NextOffer.Proofs.Binary64.Summation
import NextOffer.Proofs.Ranking.EntryOrder
import NextOffer.Proofs.Toml
import NextOffer.Proofs.Settings.Layers
import NextOffer.Proofs.Settings.Merge
import NextOffer.Proofs.Spelling
import NextOffer.Proofs.Rereading
import NextOffer.Proofs.Lines
import NextOffer.Proofs.Renderings
import NextOffer.Proofs.Command.Simulation
import NextOffer.Proofs.Binary64.Monotone
import NextOffer.Proofs.Walk
import NextOffer.Proofs.Ranking.Rounding
import NextOffer.Proofs.Directories
import NextOffer.Proofs.ReportFiles
import NextOffer.Proofs.LogLines
import NextOffer.Proofs.Calendar.Days
import NextOffer.Proofs.Calendar.Universal
import NextOffer.Proofs.Decoding
