import Pine.Core.Base64
import Pine.Core.Binary64
import Pine.Core.Bytes
import Pine.Core.Calendar
import Pine.Core.Catalog
import Pine.Core.DateTime
import Pine.Core.DayNumber
import Pine.Core.Debounce
import Pine.Core.Dict
import Pine.Core.Digits
import Pine.Core.Disk
import Pine.Core.Growth
import Pine.Core.Json.Equality
import Pine.Core.Json.Parse
import Pine.Core.Json.Print
import Pine.Core.Json.RoundTrip
import Pine.Core.Json.Sort
import Pine.Core.Json.Value
import Pine.Core.Keyset
import Pine.Core.Path
import Pine.Core.Procedure
import Pine.Core.Program
import Pine.Core.Regex
import Pine.Core.Run
import Pine.Core.SlidingWindow
import Pine.Core.Sql
import Pine.Core.Strip
import Pine.Core.Text
import Pine.Core.TextOrder
import Pine.Core.ThreeValued
import Pine.Ledger.Backup.Create
import Pine.Ledger.Backup.RunningRuns
import Pine.Ledger.Capture.Capture
import Pine.Ledger.Capture.Freshness
import Pine.Ledger.Capture.Idempotence
import Pine.Ledger.Capture.Outcome
import Pine.Ledger.Console.Agreement
import Pine.Ledger.Console.Backend
import Pine.Ledger.Console.BackendDetails
import Pine.Ledger.Console.Concluded
import Pine.Ledger.Console.Exchange
import Pine.Ledger.Console.Extraction
import Pine.Ledger.Console.FrozenRequest
import Pine.Ledger.Console.FrozenWorkflow
import Pine.Ledger.Console.Honest
import Pine.Ledger.Console.Http
import Pine.Ledger.Console.Moves
import Pine.Ledger.Console.Projection
import Pine.Ledger.Console.RateLimit
import Pine.Ledger.Console.Reviewing
import Pine.Ledger.Console.Security
import Pine.Ledger.Console.SessionHistory
import Pine.Ledger.Console.SessionRace
import Pine.Ledger.Console.SessionRows
import Pine.Ledger.Console.Sessions
import Pine.Ledger.Console.Store
import Pine.Ledger.Console.WorkflowService
import Pine.Ledger.Console.Workflows
import Pine.Ledger.Debouncer
import Pine.Ledger.Errors
import Pine.Ledger.External.Evidence
import Pine.Ledger.External.Exclusion
import Pine.Ledger.External.Imports
import Pine.Ledger.Integrity
import Pine.Ledger.JsonUtils
import Pine.Ledger.Msm
import Pine.Ledger.Reading.Acceptance
import Pine.Ledger.Reading.Cursor
import Pine.Ledger.Reading.Legible
import Pine.Ledger.Reading.Listing
import Pine.Ledger.Reading.Pages
import Pine.Ledger.Reading.Pagination
import Pine.Ledger.Reading.Run
import Pine.Ledger.Record.Checker
import Pine.Ledger.Record.Committed
import Pine.Ledger.Record.Copies
import Pine.Ledger.Record.Published
import Pine.Ledger.Record.Soundness
import Pine.Ledger.Record.Verify
import Pine.Ledger.Record.Yaml
import Pine.Ledger.Registry.Backfill
import Pine.Ledger.Registry.Evolution
import Pine.Ledger.Registry.Lifecycle
import Pine.Ledger.Registry.Migrations
import Pine.Ledger.Registry.Operations
import Pine.Ledger.Registry.Quarantine
import Pine.Ledger.Registry.Running
import Pine.Ledger.Registry.StartedTouched
import Pine.Ledger.Registry.Statements
import Pine.Ledger.Registry.Tables
import Pine.Ledger.Registry.TouchIdentity
import Pine.Ledger.Registry.Triggers
import Pine.Ledger.Registry.Uniqueness
import Pine.Ledger.Registry.Windows
import Pine.Ledger.Results.Evidence
import Pine.Ledger.Results.Ingest
import Pine.Ledger.Results.Permanence
import Pine.Ledger.Results.RoundTrip
import Pine.Ledger.Run.Artifacts
import Pine.Ledger.Run.AtMostOnce
import Pine.Ledger.Run.Bound
import Pine.Ledger.Run.Execution
import Pine.Ledger.Run.Load
import Pine.Ledger.Run.Prepare
import Pine.Ledger.Run.Result
import Pine.Ledger.Run.Retry
import Pine.Ledger.Services
import Pine.Ledger.SnapshotWatch
import Pine.Ledger.Watcher
import Pine.Ledger.Writer.Consistency
import Pine.Ledger.Writer.Crash
import Pine.Ledger.Writer.Manifest
import Pine.Ledger.Writer.Ownership
import Pine.Ledger.Writer.Prepare
import Pine.Ledger.Writer.Quiescent
import Pine.Ledger.Writer.Recorded
import Pine.Ledger.Writer.Recovery
import Pine.Ledger.Writer.Rules
import Pine.Ledger.Writer.Site
import Pine.Ledger.Writer.Staging
import Pine.Ledger.Writer.Write
