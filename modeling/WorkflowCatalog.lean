import WorkflowCatalog.Ascending
import WorkflowCatalog.CommandLine
import WorkflowCatalog.CommandLine.Arguments
import WorkflowCatalog.CommandLine.Display
import WorkflowCatalog.CommandLine.Invocation
import WorkflowCatalog.Decimal.Binary64
import WorkflowCatalog.Decimal.Number
import WorkflowCatalog.Descriptor.Basic
import WorkflowCatalog.Descriptor.Braces
import WorkflowCatalog.Descriptor.Cwl
import WorkflowCatalog.Descriptor.Imports
import WorkflowCatalog.Descriptor.Nextflow
import WorkflowCatalog.Descriptor.Resolver
import WorkflowCatalog.Descriptor.Service
import WorkflowCatalog.Descriptor.Statement
import WorkflowCatalog.Descriptor.Wdl
import WorkflowCatalog.Diff
import WorkflowCatalog.Digest.Sha2
import WorkflowCatalog.Entry
import WorkflowCatalog.EntryPath
import WorkflowCatalog.EventLog
import WorkflowCatalog.Glob
import WorkflowCatalog.Json.Basic
import WorkflowCatalog.Json.Printer
import WorkflowCatalog.Json.Reader
import WorkflowCatalog.Keyed
import WorkflowCatalog.Language
import WorkflowCatalog.Main
import WorkflowCatalog.Manifest
import WorkflowCatalog.Manifest.Filter
import WorkflowCatalog.Manifest.Schema
import WorkflowCatalog.Merge
import WorkflowCatalog.Path
import WorkflowCatalog.Proofs.Accounts
import WorkflowCatalog.Proofs.Additions
import WorkflowCatalog.Proofs.Addresses
import WorkflowCatalog.Proofs.Agreement
import WorkflowCatalog.Proofs.Builds
import WorkflowCatalog.Proofs.Calls
import WorkflowCatalog.Proofs.Cancellation
import WorkflowCatalog.Proofs.Catalog
import WorkflowCatalog.Proofs.Changes
import WorkflowCatalog.Proofs.Clock
import WorkflowCatalog.Proofs.Commuting
import WorkflowCatalog.Proofs.Comparison
import WorkflowCatalog.Proofs.Convergence
import WorkflowCatalog.Proofs.Documents
import WorkflowCatalog.Proofs.Durability
import WorkflowCatalog.Proofs.Encoding
import WorkflowCatalog.Proofs.Entries
import WorkflowCatalog.Proofs.EventLogs
import WorkflowCatalog.Proofs.Execution
import WorkflowCatalog.Proofs.Files
import WorkflowCatalog.Proofs.Filters
import WorkflowCatalog.Proofs.FirstBuilds
import WorkflowCatalog.Proofs.Frozen
import WorkflowCatalog.Proofs.Idempotence
import WorkflowCatalog.Proofs.Imports
import WorkflowCatalog.Proofs.Interruption
import WorkflowCatalog.Proofs.Jobs
import WorkflowCatalog.Proofs.JsonText
import WorkflowCatalog.Proofs.Manifests
import WorkflowCatalog.Proofs.Mirrors
import WorkflowCatalog.Proofs.Orderings
import WorkflowCatalog.Proofs.Parallel
import WorkflowCatalog.Proofs.Plans
import WorkflowCatalog.Proofs.Progress
import WorkflowCatalog.Proofs.Reach
import WorkflowCatalog.Proofs.Rebuilds
import WorkflowCatalog.Proofs.Refusals
import WorkflowCatalog.Proofs.Remotes
import WorkflowCatalog.Proofs.Removal
import WorkflowCatalog.Proofs.Repeats
import WorkflowCatalog.Proofs.Reports
import WorkflowCatalog.Proofs.Representation
import WorkflowCatalog.Proofs.Rollback
import WorkflowCatalog.Proofs.Serving
import WorkflowCatalog.Proofs.Siblings
import WorkflowCatalog.Proofs.Snapshots
import WorkflowCatalog.Proofs.Stops
import WorkflowCatalog.Proofs.Surveys
import WorkflowCatalog.Proofs.Trails
import WorkflowCatalog.Proofs.Verdicts
import WorkflowCatalog.Reconcile
import WorkflowCatalog.Reconcile.Build
import WorkflowCatalog.Reconcile.Context
import WorkflowCatalog.Reconcile.Options
import WorkflowCatalog.Reconcile.Sync
import WorkflowCatalog.Regex.Basic
import WorkflowCatalog.Regex.Bracket
import WorkflowCatalog.Regex.Escape
import WorkflowCatalog.Regex.Pattern
import WorkflowCatalog.Remote
import WorkflowCatalog.Settings
import WorkflowCatalog.Settings.Layer
import WorkflowCatalog.Snapshot
import WorkflowCatalog.Snapshot.Document
import WorkflowCatalog.SourceFile
import WorkflowCatalog.Store
import WorkflowCatalog.Store.Disk
import WorkflowCatalog.Store.Document
import WorkflowCatalog.SyncError
import WorkflowCatalog.SyncResult
import WorkflowCatalog.Text.Digit
import WorkflowCatalog.Text.Split
import WorkflowCatalog.Text.Utf8
import WorkflowCatalog.Timestamp
import WorkflowCatalog.Toml.Basic
import WorkflowCatalog.Toml.Reader
import WorkflowCatalog.Toml.Scalar
import WorkflowCatalog.Unicode.Category
import WorkflowCatalog.Unicode.Fold
import WorkflowCatalog.Unicode.Property
import WorkflowCatalog.Unicode.Ranges
import WorkflowCatalog.Unicode.Script
import WorkflowCatalog.Validation
import WorkflowCatalog.Version
import WorkflowCatalog.Webhook
import WorkflowCatalog.Yaml.Glyph
import WorkflowCatalog.Yaml.Node
import WorkflowCatalog.Yaml.Scalar
import WorkflowCatalog.Yaml.Text
import WorkflowCatalog.Yaml.Token
import WorkflowCatalog.Yaml.Value
import WorkflowCatalog.Proofs.Reversal
import WorkflowCatalog.Proofs.Fates
import WorkflowCatalog.Proofs.Rounds
import WorkflowCatalog.Proofs.Checksums
import WorkflowCatalog.Proofs.Classification
import WorkflowCatalog.Proofs.Primaries
import WorkflowCatalog.Proofs.Shown
import WorkflowCatalog.Proofs.WholeNames
import WorkflowCatalog.Proofs.Statements
import WorkflowCatalog.Proofs.ImportLines
import WorkflowCatalog.Proofs.References
import WorkflowCatalog.Proofs.Targets
import WorkflowCatalog.Proofs.Configs
import WorkflowCatalog.Proofs.Spellings
import WorkflowCatalog.Proofs.ServiceFiles
import WorkflowCatalog.Proofs.Worklists
import WorkflowCatalog.Proofs.Events
import WorkflowCatalog.Proofs.Disks
import WorkflowCatalog.Proofs.Commands
import WorkflowCatalog.Proofs.Balance
import WorkflowCatalog.Proofs.Paths
import WorkflowCatalog.Proofs.Judgments
