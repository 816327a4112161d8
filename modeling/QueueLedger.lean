import QueueLedger.Config.Json
import QueueLedger.DueTimer
import QueueLedger.Log.Bootstrap
import QueueLedger.Registry
import QueueLedger.Snapshot.Json
import QueueLedger.Snapshot.Wire
import QueueLedger.Proofs.AcknowledgedSet
import QueueLedger.Proofs.Decision
import QueueLedger.Proofs.Run
import QueueLedger.Proofs.Atomicity
import QueueLedger.Proofs.RangeVisit
import QueueLedger.Proofs.Tables
import QueueLedger.Proofs.KeyOrder
import QueueLedger.Proofs.KeyLayout
import QueueLedger.Proofs.HexText
import QueueLedger.Proofs.RecordCodecs
import QueueLedger.Proofs.ReceiptText
import QueueLedger.Proofs.CheckPointTable
import QueueLedger.Proofs.Coherence
import QueueLedger.Proofs.BitmapFormat
import QueueLedger.Proofs.GroupImages
import QueueLedger.Proofs.Accounts
import QueueLedger.Proofs.SnapshotWire
import QueueLedger.Proofs.Alike
import QueueLedger.Proofs.History
import QueueLedger.Proofs.Lead
import QueueLedger.Proofs.Isolation
import QueueLedger.Proofs.Recovery
import QueueLedger.Proofs.Restoring
import QueueLedger.Proofs.DueTimers
import QueueLedger.Proofs.EveryGroup
import QueueLedger.Proofs.Loading
import QueueLedger.Proofs.Visits
import QueueLedger.Proofs.PinnedViews
import QueueLedger.Proofs.SnapshotViews
import QueueLedger.Proofs.Exclusion
import QueueLedger.Proofs.Retrying
import QueueLedger.Proofs.Lockstep
import QueueLedger.Proofs.Retirement
import QueueLedger.Proofs.SteppedCommit
import QueueLedger.Proofs.Backlog
import QueueLedger.Proofs.ErrorWalks
import QueueLedger.Proofs.Anchoring
import QueueLedger.Proofs.LogFiles
import QueueLedger.Proofs.LogRouting
import QueueLedger.Proofs.JsonShape
import QueueLedger.Proofs.JsonForms
import QueueLedger.Proofs.Bookkeeping
import QueueLedger.Proofs.Preservation
import QueueLedger.Proofs.Monitoring
