import TulyaStore.Checkpoint.Append
import TulyaStore.Checkpoint.Apply
import TulyaStore.Checkpoint.Closure
import TulyaStore.Checkpoint.Encoders
import TulyaStore.Checkpoint.HotWal
import TulyaStore.Checkpoint.HotWalCommit
import TulyaStore.Checkpoint.LazyOpening
import TulyaStore.Checkpoint.LazyReader
import TulyaStore.Checkpoint.LazyRuns
import TulyaStore.Checkpoint.Manifest
import TulyaStore.Checkpoint.Model
import TulyaStore.Checkpoint.Nodes
import TulyaStore.Checkpoint.Reader
import TulyaStore.Checkpoint.ReaderSpec
import TulyaStore.Checkpoint.Record
import TulyaStore.Checkpoint.RecordArithmetic
import TulyaStore.Checkpoint.RecordCodec
import TulyaStore.Checkpoint.RecordRoundTrip
import TulyaStore.Checkpoint.Route
import TulyaStore.Checkpoint.RouteCodec
import TulyaStore.Checkpoint.RouteFooter
import TulyaStore.Checkpoint.Segment
import TulyaStore.Checkpoint.SegmentCodec
import TulyaStore.Checkpoint.SegmentRoom
import TulyaStore.Checkpoint.State
import TulyaStore.Checkpoint.Streams
import TulyaStore.History.Authority
import TulyaStore.History.Collect
import TulyaStore.History.CollectSpec
import TulyaStore.History.ContentCommit
import TulyaStore.History.Creation
import TulyaStore.History.Cursor
import TulyaStore.History.FileNames
import TulyaStore.History.Guarantees
import TulyaStore.History.Guarded
import TulyaStore.History.Import
import TulyaStore.History.Invariant
import TulyaStore.History.Ledger
import TulyaStore.History.Log
import TulyaStore.History.LogScan
import TulyaStore.History.Logged
import TulyaStore.History.Manifest
import TulyaStore.History.ManifestText
import TulyaStore.History.Model
import TulyaStore.History.Mutations
import TulyaStore.History.Opening
import TulyaStore.History.OperationIdentity
import TulyaStore.History.Promises
import TulyaStore.History.Publish
import TulyaStore.History.Queries
import TulyaStore.History.Reclamation
import TulyaStore.History.Record
import TulyaStore.History.RecordCanonical
import TulyaStore.History.RecordCodec
import TulyaStore.History.RecordCommit
import TulyaStore.History.Recovery
import TulyaStore.History.Replay
import TulyaStore.History.Retries
import TulyaStore.History.Runs
import TulyaStore.History.Snapshot
import TulyaStore.History.SnapshotCodec
import TulyaStore.History.SnapshotStore
import TulyaStore.History.Store
import TulyaStore.History.View
import TulyaStore.Lib.Bytes
import TulyaStore.Lib.Check
import TulyaStore.Lib.Chunks
import TulyaStore.Lib.Codec
import TulyaStore.Lib.Decimal
import TulyaStore.Lib.Device
import TulyaStore.Lib.Distinct
import TulyaStore.Lib.Faults
import TulyaStore.Lib.Fields
import TulyaStore.Lib.Fifo
import TulyaStore.Lib.Files
import TulyaStore.Lib.Folds
import TulyaStore.Lib.Frames
import TulyaStore.Lib.KeyMap
import TulyaStore.Lib.Layout
import TulyaStore.Lib.Machine
import TulyaStore.Lib.Mark
import TulyaStore.Lib.Outcome
import TulyaStore.Lib.Preimage
import TulyaStore.Lib.Refusals
import TulyaStore.Lib.Requests
import TulyaStore.Lib.Rope
import TulyaStore.Lib.RopeCost
import TulyaStore.Lib.Runs
import TulyaStore.Lib.Traces
import TulyaStore.Lib.ZeroTail
import TulyaStore.Reclaim.Protocol
import TulyaStore.Reclaim.Safety
import TulyaStore.Sequence.Arena
import TulyaStore.Sequence.ArenaRuns
import TulyaStore.Sequence.Atomicity
import TulyaStore.Sequence.Authentic
import TulyaStore.Sequence.Avl
import TulyaStore.Sequence.Backend
import TulyaStore.Sequence.BackendRuns
import TulyaStore.Sequence.CompactImage
import TulyaStore.Sequence.Compacted
import TulyaStore.Sequence.Compaction
import TulyaStore.Sequence.CompactionSpec
import TulyaStore.Sequence.ContentFaults
import TulyaStore.Sequence.ContentFiles
import TulyaStore.Sequence.ContentIo
import TulyaStore.Sequence.ContentRuns
import TulyaStore.Sequence.Contents
import TulyaStore.Sequence.Format
import TulyaStore.Sequence.GenerationImage
import TulyaStore.Sequence.Join
import TulyaStore.Sequence.Locality
import TulyaStore.Sequence.Mirror
import TulyaStore.Sequence.NodeCodec
import TulyaStore.Sequence.Overlay
import TulyaStore.Sequence.Physical
import TulyaStore.Sequence.Reads
import TulyaStore.Sequence.Refinement
import TulyaStore.Sequence.Runs
import TulyaStore.Sequence.Splice
import TulyaStore.Sequence.Tiling
import TulyaStore.V2.ApplySpec
import TulyaStore.V2.Backend
import TulyaStore.V2.BackendSpec
import TulyaStore.V2.Canonical
import TulyaStore.V2.Commit
import TulyaStore.V2.CommitCodec
import TulyaStore.V2.CompactPlan
import TulyaStore.V2.CompactSpec
import TulyaStore.V2.Compacted
import TulyaStore.V2.Compaction
import TulyaStore.V2.DeleteSpec
import TulyaStore.V2.Guarded
import TulyaStore.V2.HotWal
import TulyaStore.V2.Image
import TulyaStore.V2.ImageCodec
import TulyaStore.V2.ImageRuns
import TulyaStore.V2.LedgerCodec
import TulyaStore.V2.Publication
import TulyaStore.V2.PublicationCodec
import TulyaStore.V2.Sealing
import TulyaStore.V2.Snapshot
import TulyaStore.V2.SnapshotCodec
import TulyaStore.V2.SnapshotDecode
import TulyaStore.V2.SnapshotValid
import TulyaStore.V2.State
import TulyaStore.V2.StateRuns
import TulyaStore.V2.StateValid
import TulyaStore.V2.TornTail
import TulyaStore.V2.Transaction
import TulyaStore.V2.TransactionCodec
import TulyaStore.V2.Validation
