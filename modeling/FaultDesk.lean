import FaultDesk.Number.Shortest
import FaultDesk.Text.Ranges
import FaultDesk.Text.Blank
import FaultDesk.Text.Digit
import FaultDesk.Text.Word
import FaultDesk.Text.Visible
import FaultDesk.Text.Case
import FaultDesk.Text.Quoted
import FaultDesk.Number.Numeral
import FaultDesk.Number.Decimal
import FaultDesk.Time.Calendar
import FaultDesk.Time.Stamp
import FaultDesk.Time.Iso
import FaultDesk.Failure
import FaultDesk.Datum.Basic
import FaultDesk.Datum.Shown
import FaultDesk.Datum.Normal
import FaultDesk.Condition
import FaultDesk.Rule.Defect
import FaultDesk.Rule.Field
import FaultDesk.Time.Span
import FaultDesk.Rule.Duration
import FaultDesk.Rule.Basic
import FaultDesk.Rule.Intake
import FaultDesk.Datum.Same
import FaultDesk.Sample
import FaultDesk.Timer.Basic
import FaultDesk.Matching
import FaultDesk.Candidate
import FaultDesk.Rate
import FaultDesk.Arbitration
import FaultDesk.Datum.Plain
import FaultDesk.Config.Basic
import FaultDesk.Config.Intake
import FaultDesk.Config.Layout
import FaultDesk.Text.Utf8
import FaultDesk.Yaml.Cursor
import FaultDesk.Yaml.Flow
import FaultDesk.Yaml.Block
import FaultDesk.Yaml.Token
import FaultDesk.Yaml.Tag
import FaultDesk.Yaml.Node
import FaultDesk.Yaml.Value
import FaultDesk.Yaml.Printer
import FaultDesk.Config.File
import FaultDesk.Selection
import FaultDesk.Datum.JsonText
import FaultDesk.Datum.JsonRead
import FaultDesk.Complaint.Template
import FaultDesk.Complaint.Draft
import FaultDesk.Incident.Gate
import FaultDesk.Log.Audit
import FaultDesk.Log.Message
import FaultDesk.Log.Line
import FaultDesk.Schedule.Cron
import FaultDesk.Lease
import FaultDesk.Datum.Column
import FaultDesk.Number.Whole
import FaultDesk.Register.Basic
import FaultDesk.Register.Numbering
import FaultDesk.Register.TypeSearch
import FaultDesk.Register.Entry
import FaultDesk.Register.Transaction
import FaultDesk.Checkpoint
import FaultDesk.Text.Listed
import FaultDesk.Settings
import FaultDesk.Source.Row
import FaultDesk.Source.Table
import FaultDesk.Source.Reader
import FaultDesk.Sync.Report
import FaultDesk.Sync.Handling
import FaultDesk.Sync.Desk
import FaultDesk.Sync.Job
import FaultDesk.Schedule.Scheduler
import FaultDesk.Register.Rows
import FaultDesk.Web.Message
import FaultDesk.Web.LogFolder
import FaultDesk.Web.Service
import FaultDesk.Proofs.Outcome
import FaultDesk.Proofs.Timer.Access
import FaultDesk.Proofs.Timer.Alike
import FaultDesk.Proofs.Number.Overflow
import FaultDesk.Proofs.Number.Line
import FaultDesk.Proofs.Matching.Refusals
import FaultDesk.Proofs.Matching.Calls
import FaultDesk.Proofs.Rate.Calls
import FaultDesk.Proofs.Matching.TrueSince
import FaultDesk.Proofs.Matching.SoleRule
import FaultDesk.Proofs.Arbitration.ActiveRun
import FaultDesk.Proofs.Arbitration.Recovery
import FaultDesk.Proofs.Timer.LeftOut
import FaultDesk.Proofs.Timer.Undisturbed
import FaultDesk.Proofs.Arbitration.Standing
import FaultDesk.Proofs.Arbitration.Breakdown
import FaultDesk.Proofs.Arbitration.Batches
import FaultDesk.Proofs.Selection.Precedence
import FaultDesk.Proofs.Selection.Gathering
import FaultDesk.Proofs.Selection.Partition
import FaultDesk.Proofs.Selection.Winners
import FaultDesk.Proofs.Selection.Completion
import FaultDesk.Proofs.Selection.Escape
import FaultDesk.Proofs.Selection.Units
import FaultDesk.Proofs.Lease.Calls
import FaultDesk.Proofs.Lease.Safety
import FaultDesk.Proofs.Number.Figures
import FaultDesk.Proofs.Number.Reading
import FaultDesk.Proofs.Number.Nearest
import FaultDesk.Proofs.Number.Rounding
import FaultDesk.Proofs.Number.ReadBack
import FaultDesk.Proofs.Time.Days
import FaultDesk.Proofs.Time.IsoText
import FaultDesk.Proofs.Register.OpenComplaints
import FaultDesk.Proofs.Register.Numbers
import FaultDesk.Proofs.Register.NextNumber
import FaultDesk.Proofs.Register.LatestIncident
import FaultDesk.Proofs.Register.FoundType
import FaultDesk.Proofs.Register.Checkpoint
import FaultDesk.Proofs.Register.AllOrNothing
import FaultDesk.Proofs.Source.JoinedRows
import FaultDesk.Proofs.Sync.Streams
import FaultDesk.Proofs.Sync.History
import FaultDesk.Proofs.Sync.Passage
import FaultDesk.Proofs.Sync.LostLease
import FaultDesk.Proofs.Sync.StreamedOnce
import FaultDesk.Proofs.Source.Detectors
import FaultDesk.Proofs.Sync.Yields
import FaultDesk.Proofs.Matching.FailingRecords
import FaultDesk.Proofs.Selection.Suppressed
import FaultDesk.Proofs.Timer.Dialogue
import FaultDesk.Proofs.Selection.Replay
import FaultDesk.Proofs.Sync.DryRun
import FaultDesk.Proofs.Sync.ControlState
import FaultDesk.Proofs.Sync.Accounting
import FaultDesk.Proofs.Sync.DeskJob
import FaultDesk.Proofs.Config.Sound
import FaultDesk.Proofs.Selection.Grounds
import FaultDesk.Proofs.Selection.Justified
import FaultDesk.Proofs.Selection.Prerequisites
import FaultDesk.Proofs.Selection.OfInterest
import FaultDesk.Proofs.Text.UpperCase
import FaultDesk.Proofs.Datum.Entries
import FaultDesk.Proofs.Config.Reread
import FaultDesk.Proofs.Yaml.PrintedText
import FaultDesk.Proofs.Config.RoundTrip
import FaultDesk.Proofs.Config.FailedSave
import FaultDesk.Proofs.Lease.Renewal
import FaultDesk.Proofs.Lease.OwnState
import FaultDesk.Proofs.Timer.Durable
import FaultDesk.Proofs.Timer.Provenance
import FaultDesk.Proofs.Source.TableChoice
import FaultDesk.Proofs.Sync.CheckpointKept
import FaultDesk.Proofs.Sync.CheckpointOrder
import FaultDesk.Proofs.Rate.SoleRate
import FaultDesk.Proofs.Timer.Ahead
import FaultDesk.Proofs.Selection.Failing
import FaultDesk.Proofs.Arbitration.TrailingRun
import FaultDesk.Proofs.Condition.Order
import FaultDesk.Proofs.Condition.KeyText
import FaultDesk.Proofs.Rate.Window
import FaultDesk.Proofs.Selection.Earlier
import FaultDesk.Proofs.Selection.Policies
import FaultDesk.Proofs.Selection.Recent
import FaultDesk.Proofs.Selection.LongestWindow
import FaultDesk.Proofs.Source.ExplodedRows
import FaultDesk.Proofs.Time.IsoRange
import FaultDesk.Proofs.Sync.StoredTime
import FaultDesk.Proofs.Sync.ReportedCheckpoint
import FaultDesk.Proofs.Complaint.Expansion
import FaultDesk.Proofs.Timer.SettledKey
import FaultDesk.Proofs.Rule.DurationText
import FaultDesk.Proofs.Json.Texts
import FaultDesk.Proofs.Json.Numbers
import FaultDesk.Proofs.Json.ReadBack
import FaultDesk.Proofs.Log.AuditLines
