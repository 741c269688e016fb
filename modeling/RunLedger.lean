import RunLedger.Aliases
import RunLedger.Binary64
import RunLedger.Binary64.Decimal
import RunLedger.Binary64.Rounding
import RunLedger.Binary64.Shortest
import RunLedger.CommandLine.Command
import RunLedger.CommandLine.Form
import RunLedger.CommandLine.Grammar
import RunLedger.CommandLine.Opening
import RunLedger.CommandLine.Run
import RunLedger.Config
import RunLedger.Database
import RunLedger.Database.Rows
import RunLedger.Database.Snapshot
import RunLedger.Distinct
import RunLedger.Entity
import RunLedger.Error
import RunLedger.Experiments
import RunLedger.Files
import RunLedger.Journal
import RunLedger.Json.Codec
import RunLedger.Json.Entity
import RunLedger.Json.Number
import RunLedger.Json.Parser
import RunLedger.Json.Printer
import RunLedger.Json.Value
import RunLedger.Location
import RunLedger.Main
import RunLedger.Metric.Winner
import RunLedger.MetricLog
import RunLedger.Models
import RunLedger.Operation
import RunLedger.Path
import RunLedger.Proofs.Answering
import RunLedger.Proofs.Area
import RunLedger.Proofs.Binary64.Order
import RunLedger.Proofs.Binary64.Range
import RunLedger.Proofs.Binary64.Shortest
import RunLedger.Proofs.CommandLine.Feedback
import RunLedger.Proofs.CommandLine.Opening
import RunLedger.Proofs.CommandLine.Refinement
import RunLedger.Proofs.CommandLine.Reporting
import RunLedger.Proofs.Disk
import RunLedger.Proofs.Experiments.Change
import RunLedger.Proofs.Experiments.Creation
import RunLedger.Proofs.Json.Entity
import RunLedger.Proofs.Json.Grammar
import RunLedger.Proofs.Json.Numbers
import RunLedger.Proofs.Json.Printing
import RunLedger.Proofs.Json.Record
import RunLedger.Proofs.Json.RoundTrip
import RunLedger.Proofs.Layout
import RunLedger.Proofs.Metric.Acceptance
import RunLedger.Proofs.Metric.Association
import RunLedger.Proofs.Metric.Batching
import RunLedger.Proofs.Metric.Convergence
import RunLedger.Proofs.Metric.Effect
import RunLedger.Proofs.Metric.History
import RunLedger.Proofs.Metric.LatestInStep
import RunLedger.Proofs.Metric.Logging
import RunLedger.Proofs.Metric.Precedence
import RunLedger.Proofs.Metric.Projection
import RunLedger.Proofs.Metric.Rebuilding
import RunLedger.Proofs.Metric.Replaying
import RunLedger.Proofs.Metric.Resubmission
import RunLedger.Proofs.Metric.Selection
import RunLedger.Proofs.Registry.AliasIntegrity
import RunLedger.Proofs.Registry.Amendment
import RunLedger.Proofs.Registry.Change
import RunLedger.Proofs.Registry.Effect
import RunLedger.Proofs.Registry.ForeignKeys
import RunLedger.Proofs.Registry.Labels
import RunLedger.Proofs.Registry.LatestVersions
import RunLedger.Proofs.Registry.Lineage
import RunLedger.Proofs.Registry.ModelChange
import RunLedger.Proofs.Registry.ModelTimes
import RunLedger.Proofs.Registry.NameConflict
import RunLedger.Proofs.Registry.Numbering
import RunLedger.Proofs.Registry.Reading
import RunLedger.Proofs.Registry.Redaction
import RunLedger.Proofs.Registry.Removal
import RunLedger.Proofs.Registry.Renaming
import RunLedger.Proofs.Registry.Rows
import RunLedger.Proofs.Registry.SoftDeletion
import RunLedger.Proofs.Registry.StageMaxima
import RunLedger.Proofs.Registry.StageMoves
import RunLedger.Proofs.Registry.VersionChange
import RunLedger.Proofs.Registry.VersionTimes
import RunLedger.Proofs.Registry.WellFormed
import RunLedger.Proofs.Relabeling
import RunLedger.Proofs.Rules.Grammar
import RunLedger.Proofs.Rules.Versions
import RunLedger.Proofs.Runs.Change
import RunLedger.Proofs.Runs.Lifecycle
import RunLedger.Proofs.Runs.Permanence
import RunLedger.Proofs.Separation
import RunLedger.Proofs.Session.ContextHistory
import RunLedger.Proofs.Session.Firing
import RunLedger.Proofs.Session.Handles
import RunLedger.Proofs.Session.Isolation
import RunLedger.Proofs.Session.Mirror
import RunLedger.Proofs.Session.OnFile
import RunLedger.Proofs.Session.Reopening
import RunLedger.Proofs.Subject
import RunLedger.Proofs.TagBook
import RunLedger.Proofs.TagMap
import RunLedger.Proofs.TagReading
import RunLedger.Proofs.Text.ByteOrder
import RunLedger.Proofs.Text.Digits
import RunLedger.Proofs.Text.Lowercase
import RunLedger.Proofs.Text.Trimming
import RunLedger.Proofs.Trace
import RunLedger.Proofs.Work.Atomicity
import RunLedger.Proofs.Work.Contention
import RunLedger.Proofs.Work.Failure
import RunLedger.Proofs.Work.Frame
import RunLedger.Proofs.Work.Overlooking
import RunLedger.Proofs.Work.Permission
import RunLedger.Proofs.Work.Relabeling
import RunLedger.Proofs.Work.Stopping
import RunLedger.Proofs.Work.Success
import RunLedger.Registry
import RunLedger.Rules
import RunLedger.Runs
import RunLedger.Session
import RunLedger.Session.Adjustment
import RunLedger.Session.Context
import RunLedger.Session.Step
import RunLedger.Stage
import RunLedger.Table
import RunLedger.Tag
import RunLedger.Text.Blank
import RunLedger.Text.Bytes
import RunLedger.Text.Digits
import RunLedger.Text.Fields
import RunLedger.Text.Lowercase
import RunLedger.Toml.Parser
import RunLedger.Toml.Value
import RunLedger.Versions
import RunLedger.Work
