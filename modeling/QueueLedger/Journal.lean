import QueueLedger.Log.Event
import QueueLedger.Snapshot
/-!
# The journal

What ledgers and their store tell about their work, as a list of notices. A notice is
a fact about one step; how it reads in a log is said here and nowhere else.

Design points:

* Some calls open a scope, and the notices inside it carry it.
* Whether a notice reaches a log file depends on the filter of the program (`Log.Program`).
  The journal holds all of them.
-/

namespace QueueLedger

/-- One thing that happened. -/
inductive Notice
  /-- A pop passed its checks and is being applied. -/
  | popping (operation : UInt64) (p : Pop)
  /-- An acknowledgment passed its checks and is being applied. -/
  | acking (operation : UInt64) (a : Ack)
  /-- A renewal passed its checks and is being applied. -/
  | renewing (operation : UInt64) (r : Renewal)
  /-- A watermark advanced. -/
  | advanced (start mark : UInt64)
  /-- The replay of an operation failed. -/
  | failed (queue : QueueId) (operation : UInt64) (kind : OperationKind) (why : Failure)
  /-- The store pinned a view. -/
  | pinned (version : UInt64)
  /-- The store was asked to let go of a view; `retained` views are left. -/
  | unpinned (version : UInt64) (released : Bool) (retained : Nat)
  /-- A snapshot was taken. -/
  | tookSnapshot (cursor : Option UInt64) (version : UInt64) (groups checkPoints : Nat)
  /-- The view of a snapshot was let go of. -/
  | releasedSnapshot (queue : QueueId) (version : UInt64) (released : Bool)
  /-- Rows that differ from a snapshot are being dropped. -/
  | dropping (rows : Nat)
  /-- A snapshot was loaded. -/
  | loadedSnapshot (groups checkPoints : Nat)
  /-- A queue was cleared. -/
  | cleared (checkPoints : Nat)
  /-- The ledger of a queue was opened. -/
  | opened (queue : QueueId)
  /-- The ledger of a queue was retired. -/
  | retired (queue : QueueId)
  deriving Repr, DecidableEq, Inhabited

/-- A call whose notices belong together. -/
inductive Scope
  /-- Taking a snapshot. -/
  | takeSnapshot (queue : QueueId)
  /-- Loading a snapshot that ends at `cursor`. -/
  | loadSnapshot (queue : QueueId) (cursor : Option UInt64)
  /-- Clearing a queue. -/
  | clear (queue : QueueId)
  deriving Repr, DecidableEq, Inhabited

/-- A notice and the scope around it. -/
structure Entry where
  /-- What happened. -/
  notice : Notice
  /-- The call in which it happened, if that opens a scope. -/
  scope : Option Scope
  deriving Repr, DecidableEq, Inhabited

/-- Notices in the order in which they were given. -/
abbrev Journal := Array Entry

/-! ### How notices read -/

/-- The targets under which the parts of the library log. -/
def logTarget (part : String) : String := "tidemq_store::" ++ part

/-- The target of ledgers. -/
def ledgerTarget : String := logTarget "state_machine"

/-- The target of watermarks. -/
def watermarkTarget : String := logTarget "ack"

/-- The target of the store. -/
def storeTarget : String := logTarget "kv::memory"

/-- The target of the registry. -/
def registryTarget : String := logTarget "registry"

/-- The fields that name a queue. -/
def queueFields (q : QueueId) : Log.Fields :=
  [("topic_id", .u64 q.topic), ("queue_id", .u32 q.queue)]

namespace Notice

/-- The level at which a notice is logged. -/
def level : Notice → Log.Level
  | failed .. => .error
  | dropping .. => .warn
  | tookSnapshot .. | loadedSnapshot .. | cleared .. | opened .. | retired .. => .info
  | pinned .. | unpinned .. | releasedSnapshot .. => .debug
  | popping .. | acking .. | renewing .. | advanced .. => .trace

/-- The target under which a notice is logged. -/
def target : Notice → String
  | advanced .. => watermarkTarget
  | pinned .. | unpinned .. => storeTarget
  | opened .. | retired .. => registryTarget
  | _ => ledgerTarget

/-- The message of a notice. -/
def message : Notice → String
  | popping .. => "Replay pop operation"
  | acking .. => "Replay ack operation"
  | renewing .. => "Replay change invisible duration operation"
  | advanced .. => "Ack watermark advanced"
  | failed .. => "Replay operation failed"
  | pinned .. => "Took in-memory KV snapshot"
  | unpinned .. => "Released in-memory KV snapshot"
  | tookSnapshot .. => "Took queue snapshot"
  | releasedSnapshot .. => "Released queue snapshot"
  | dropping .. => "Dropping check point rows that differ from snapshot"
  | loadedSnapshot .. => "Loaded queue snapshot"
  | cleared .. => "Cleared queue state"
  | opened .. => "Created queue state machine"
  | retired .. => "Retired queue state machine"

/-- The fields of a notice. -/
def fields : Notice → Log.Fields
  | popping operation p =>
    queueFields p.queue ++
      [("consumer_group_id", .u64 p.group), ("offset", .u64 p.offset), ("count", .u32 p.count),
        ("operation_id", .u64 operation), ("pop_type", .text p.kind.name),
        ("end_mark", .flag p.endMark), ("next_visible_timestamp", .u64 p.nextVisible)]
  | acking operation a =>
    queueFields a.queue ++
      [("operation_id", .u64 operation), ("target", .u64 a.target),
        ("ack_type", .rendered a.kind.name)]
  | renewing operation r =>
    queueFields r.queue ++
      [("operation_id", .u64 operation), ("target", .u64 r.target),
        ("invisible_duration", .u64 r.invisible), ("next_visible_timestamp", .u64 r.nextVisible)]
  | advanced start mark => [("from", .u64 start), ("to", .u64 mark)]
  | failed queue operation kind why =>
    queueFields queue ++
      [("operation_id", .u64 operation), ("operation", .text kind.name),
        ("error", .rendered why.output)]
  | pinned version => [("version", .u64 version)]
  | unpinned version released retained =>
    [("version", .u64 version), ("released", .flag released), ("retained", .number retained)]
  | tookSnapshot cursor version groups checkPoints =>
    [("snapshot_end_offset", .option cursor), ("kv_snapshot_version", .u64 version),
      ("consumer_groups", .number groups), ("check_points", .number checkPoints)]
  | releasedSnapshot queue version released =>
    queueFields queue ++ [("kv_snapshot_version", .u64 version), ("released", .flag released)]
  | dropping rows => [("rows", .number rows)]
  | loadedSnapshot groups checkPoints =>
    [("consumer_groups", .number groups), ("check_points", .number checkPoints)]
  | cleared checkPoints => [("check_points", .number checkPoints)]
  | opened queue | retired queue => [("queue", .rendered queue.text)]

end Notice

/-- The span of a scope. -/
def Scope.span : Scope → Log.Span
  | takeSnapshot q => ⟨"take_snapshot", .info, ledgerTarget, queueFields q⟩
  | loadSnapshot q cursor =>
    ⟨"load_snapshot", .info, ledgerTarget,
      queueFields q ++ [("snapshot_end_offset", .option cursor)]⟩
  | clear q => ⟨"clear", .info, ledgerTarget, queueFields q⟩

/-- The log event of an entry. -/
def Entry.event (e : Entry) : Log.Event :=
  .plain e.notice.level e.notice.target e.notice.message e.notice.fields
    (e.scope.toList.map Scope.span)

end QueueLedger
