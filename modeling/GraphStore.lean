import GraphStore.Bytes
import GraphStore.OrderedMap
import GraphStore.Text.Classes
import GraphStore.Text.Quoted
import GraphStore.Double
import GraphStore.Decimal.Layout
import GraphStore.Decimal.Reading
import GraphStore.Error
import GraphStore.Encoding.Ordered
import GraphStore.Encoding.Varint
import GraphStore.Encoding.Cursor
import GraphStore.Encoding.Field
import GraphStore.Value.Codec
import GraphStore.Checksum
import GraphStore.Json.Basic
import GraphStore.Json.Text
import GraphStore.Json.Reading
import GraphStore.Slice
import GraphStore.KeyRange.Basic
import GraphStore.KeyRange.Split
import GraphStore.Mutation
import GraphStore.Table
import GraphStore.Action
import GraphStore.Paging
import GraphStore.Log.File
import GraphStore.Log.Record
import GraphStore.Log.Writer
import GraphStore.Manager.Basic
import GraphStore.Manager.Generations
import GraphStore.Manager.Memory
import GraphStore.Manager.Embedded
import GraphStore.Part
import GraphStore.Cache.Stores
import GraphStore.Transaction
import GraphStore.Ids.Block
import GraphStore.Ids.Authority
import GraphStore.Ids.Pool
import GraphStore.Index.KeyInfo
import GraphStore.Index.Descriptor
import GraphStore.Index.Document
import GraphStore.Index.Schema
import GraphStore.Index.Composite
import GraphStore.Index.Substitution
import GraphStore.Index.Query
import GraphStore.Toml.Scalar
import GraphStore.Toml.Tables
import GraphStore.Toml.Reading
import GraphStore.Options.Storage
import GraphStore.Scan.Basic
import GraphStore.Manager.Interposed
import GraphStore.Scan.Job
import GraphStore.Scan.Scanner
import GraphStore.Scan.Transactional
import GraphStore.Scan.Removal
import GraphStore.Scan.Extraction
import GraphStore.Scan.Repair
import GraphStore.Scan.Script
import GraphStore.Document.Reading
import GraphStore.Document.Failure
import GraphStore.Document.Row
import GraphStore.Document.Value
import GraphStore.Document.Settings
import GraphStore.Document.Index
import GraphStore.Document.Scan
import GraphStore.Session.Handle
import GraphStore.Session.Basic
import GraphStore.Session.Transactions
import GraphStore.Session.Identifiers
import GraphStore.Session.Indexes
import GraphStore.Session.LogAccess
import GraphStore.Document.Session
import GraphStore.Proofs.Bytes
import GraphStore.Proofs.Action
import GraphStore.Proofs.Encoding.Reading
import GraphStore.Proofs.Log.Payload
import GraphStore.Proofs.Log.Framing
import GraphStore.Proofs.Log.File
import GraphStore.Proofs.Log.Appending
import GraphStore.Proofs.Tables
import GraphStore.Proofs.Manager.Coherence
import GraphStore.Proofs.Manager.Calls
import GraphStore.Proofs.Manager.Guarded
import GraphStore.Proofs.Manager.Running
import GraphStore.Proofs.Manager.Refinement
import GraphStore.Proofs.Manager.Upkeep
import GraphStore.Proofs.Ids.Watermark
import GraphStore.Proofs.Ids.Store
import GraphStore.Proofs.Ids.Interleaving
import GraphStore.Proofs.Ids.Allocation
import GraphStore.Proofs.Ids.Safety
import GraphStore.Proofs.Ids.Order
import GraphStore.Proofs.Ids.Pooling
import GraphStore.Proofs.Ids.Uniqueness
import GraphStore.Proofs.Progress
import GraphStore.Proofs.Rows
import GraphStore.Proofs.Mutation
import GraphStore.Proofs.MutationHistory
import GraphStore.Proofs.Transaction.Staging
import GraphStore.Proofs.Manager.Tabular
import GraphStore.Proofs.Cache.Pool
import GraphStore.Proofs.Transaction.Batches
import GraphStore.Proofs.Transaction.Flush
import GraphStore.Proofs.Transaction.Commit
import GraphStore.Proofs.Cache.Steps
import GraphStore.Proofs.Transaction.Reading
import GraphStore.Proofs.Cache.Interleaving
import GraphStore.Proofs.Cache.Sequential
import GraphStore.Proofs.Cache.Calls
import GraphStore.Proofs.Cache.Freshness
import GraphStore.Proofs.Scan.Pages
import GraphStore.Proofs.Scan.Partitions
import GraphStore.Proofs.Scan.Accounting
import GraphStore.Proofs.Scan.Coverage
import GraphStore.Proofs.Scan.Sequential
import GraphStore.Proofs.Scan.Completion
import GraphStore.Proofs.Scan.Outcome
import GraphStore.Proofs.Scan.Reporting
import GraphStore.Proofs.Scan.Steady
import GraphStore.Proofs.Transaction.SingleRow
import GraphStore.Proofs.Scan.Removal
import GraphStore.Proofs.Cells
import GraphStore.Proofs.Index.Ownership
import GraphStore.Proofs.Scan.RemovalOutcome
import GraphStore.Proofs.Transaction.ManyRows
import GraphStore.Proofs.Scan.Effects
import GraphStore.Proofs.Index.Recording
import GraphStore.Proofs.Scan.Repair
import GraphStore.Proofs.Scan.RepairOutcome
import GraphStore.Proofs.Scan.UniqueRepair
import GraphStore.Proofs.Manager.Handles
import GraphStore.Proofs.Ids.Granting
import GraphStore.Proofs.Manager.Sharing
import GraphStore.Proofs.Manager.Batching
import GraphStore.Proofs.Transaction.Rereading
import GraphStore.Proofs.Cache.Attachment
import GraphStore.Proofs.Log.Corruption
import GraphStore.Proofs.Manager.Recovery
import GraphStore.Proofs.Manager.Closing
import GraphStore.Proofs.Transaction.Failing
import GraphStore.Proofs.Results
import GraphStore.Proofs.Encoding.Ranking
import GraphStore.Proofs.Encoding.Numbers
import GraphStore.Proofs.Value.Doubles
import GraphStore.Proofs.Value.Order
import GraphStore.Proofs.Value.Integers
import GraphStore.Proofs.Index.Keys
import GraphStore.Proofs.Index.Lookup
import GraphStore.Proofs.Manager.Quiet
import GraphStore.Proofs.Transaction.Issuing
import GraphStore.Proofs.Transaction.Lifecycle
import GraphStore.Proofs.Scan.DisturbedKeys
import GraphStore.Proofs.Scan.Splitting
import GraphStore.Proofs.Manager.StoppedBatch
import GraphStore.Proofs.Encoding.Accepting
import GraphStore.Proofs.Index.Canonical
import GraphStore.Proofs.Value.Coercion
import GraphStore.Proofs.Encoding.Fields
import GraphStore.Proofs.Encoding.Offsets
import GraphStore.Proofs.Slice.Stems
import GraphStore.Proofs.Slice.WholeRows
import GraphStore.Proofs.Index.Substitution
import GraphStore.Proofs.Scan.FailingWalks
import GraphStore.Proofs.Slice.Readers
import GraphStore.Proofs.Encoding.EscapedStrings
import GraphStore.Proofs.Encoding.Varints
import GraphStore.Proofs.Encoding.Delimiting
import GraphStore.Proofs.Counting
import GraphStore.Proofs.Log.Decoding
import GraphStore.Proofs.Slice.Successor
import GraphStore.Proofs.Ids.ForeignCells
import GraphStore.Proofs.Identifiers
