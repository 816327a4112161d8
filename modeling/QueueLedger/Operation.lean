import QueueLedger.Failure
import QueueLedger.Offset
/-!
# Operations

The log of a queue is a sequence of pops, acknowledgments and renewals. A pop hands a batch
of messages to a consumer group, an acknowledgment settles the delivery that a pop made, a
renewal moves the time at which that delivery becomes visible again.

Design points:

* A delivery runs on one of two paths with counters of their own, data and retry. The pop's
  kind decides the path (`PopKind.path`), and with the kind of acknowledgment it decides
  whether settling moves a watermark at all (`settlingPath`).
* Times saturate: a delivery that would become visible past the last timestamp becomes
  visible at it.
-/

namespace QueueLedger

/-- The two delivery paths of a consumer group. -/
inductive Path
  /-- Messages of the data stream. -/
  | data
  /-- Messages handed out again from the retry stream. -/
  | retry
  deriving Repr, DecidableEq, Inhabited

/-- How a pop delivers. -/
inductive PopKind
  /-- At least once, from the data stream. -/
  | normal
  /-- In strict order: the offsets stay locked while the delivery is in flight. -/
  | order
  /-- From the retry stream. -/
  | retry
  deriving Repr, DecidableEq, Inhabited

namespace PopKind

/-- The number that records store for the kind. -/
def tag : PopKind → UInt8
  | normal => 0
  | order => 1
  | retry => 2

/-- The kind with a given number. -/
def ofTag? (t : UInt8) : Option PopKind :=
  if t = 0 then some normal else if t = 1 then some order else if t = 2 then some retry else none

/-- The kind with a given number, or the refusal of a number that names none. -/
def ofTag (t : UInt8) : Except Failure PopKind :=
  match ofTag? t with
  | some k => .ok k
  | none => .error (.illegalArgument (.unknownPopType t))

/-- The short name that log events show. -/
def name : PopKind → String
  | normal => "normal"
  | order => "order"
  | retry => "retry"

/-- The path that a pop of the kind delivers on. -/
def path : PopKind → Path
  | retry => .retry
  | _ => .data

@[simp] theorem ofTag?_tag (k : PopKind) : ofTag? k.tag = some k := by
  cases k <;> decide

/-- A number that names a kind is the kind's number. -/
theorem tag_of_ofTag? {t : UInt8} {k : PopKind} (h : ofTag? t = some k) : k.tag = t := by
  unfold ofTag? at h
  split at h
  · cases h; simp_all [tag]
  · split at h
    · cases h; simp_all [tag]
    · split at h
      · cases h; simp_all [tag]
      · cases h

end PopKind

/-- How a delivery was settled. -/
inductive AckKind
  /-- The consumer processed the messages. -/
  | normal
  /-- The delivery expired, and the messages go back for another one. -/
  | timeout
  deriving Repr, DecidableEq, Inhabited

/-- The name that log events show. -/
def AckKind.name : AckKind → String
  | normal => "Normal"
  | timeout => "Timeout"

/-- The path whose watermark a settled delivery feeds. An ordered delivery that expired
feeds none: its messages come again. -/
def settlingPath : PopKind → AckKind → Option Path
  | .order, .timeout => none
  | .retry, _ => some .retry
  | _, _ => some .data

/-- Settling feeds the path of the delivery, unless that is an ordered one that expired. -/
theorem settlingPath_eq_some_iff {k : PopKind} {a : AckKind} {path : Path} :
    settlingPath k a = some path ↔ k.path = path ∧ ¬ (k = .order ∧ a = .timeout) := by
  cases k <;> cases a <;> simp [settlingPath, PopKind.path]

/-- Delivery of `count` messages that end at `offset` to one consumer group. -/
structure Pop where
  /-- The queue of the messages. -/
  queue : QueueId
  /-- The consumer group. -/
  group : UInt64
  /-- The last offset of the batch. -/
  offset : UInt64
  /-- The number of messages. -/
  count : UInt32
  /-- How the messages are delivered. -/
  kind : PopKind
  /-- The time of the pop in milliseconds. -/
  time : UInt64
  /-- How long the delivery stays invisible. -/
  invisible : UInt64
  /-- The batch is acknowledged already, and only counters move. -/
  endMark : Bool
  /-- How often the messages were delivered before. -/
  reconsume : UInt32
  deriving Repr, DecidableEq, Inhabited

namespace Pop

/-- The offsets that the pop delivers. -/
def batch (p : Pop) : Batch := .ending p.offset p.count

/-- The time at which the delivery becomes visible again. -/
def nextVisible (p : Pop) : UInt64 := satAdd p.time p.invisible

/-- A pop delivers at least one message, and no more than there are offsets up to its last. -/
def check (p : Pop) : Except Failure Unit :=
  if p.count = 0 then .error (.illegalArgument .emptyPop)
  else if satAdd p.offset 1 < p.count.toUInt64 then
    .error (.illegalArgument (.popTooLong p.count p.offset))
  else .ok ()

end Pop

/-- Settlement of the delivery that the operation `target` made. -/
structure Ack where
  /-- The queue of the delivery. -/
  queue : QueueId
  /-- The operation id of the pop. -/
  target : UInt64
  /-- How the delivery was settled. -/
  kind : AckKind
  /-- The time of the acknowledgment. -/
  time : UInt64
  deriving Repr, DecidableEq, Inhabited

/-- A new time of visibility for the delivery that the operation `target` made. -/
structure Renewal where
  /-- The queue of the delivery. -/
  queue : QueueId
  /-- The operation id of the pop. -/
  target : UInt64
  /-- The time of the renewal. -/
  time : UInt64
  /-- How long the delivery stays invisible from now on. -/
  invisible : UInt64
  deriving Repr, DecidableEq, Inhabited

/-- The time at which a renewed delivery becomes visible again. -/
def Renewal.nextVisible (r : Renewal) : UInt64 := satAdd r.time r.invisible

/-- The three kinds of operations. -/
inductive OperationKind
  /-- A pop. -/
  | pop
  /-- An acknowledgment. -/
  | ack
  /-- A renewal. -/
  | renewal
  deriving Repr, DecidableEq, Inhabited

/-- The name of a kind in logs and counters. -/
def OperationKind.name : OperationKind → String
  | pop => "pop"
  | ack => "ack"
  | renewal => "change_invisible_duration"

/-- One entry of a queue's operation log. -/
inductive Operation
  /-- A delivery. -/
  | pop (p : Pop)
  /-- A settlement. -/
  | ack (a : Ack)
  /-- A new time of visibility. -/
  | renewal (r : Renewal)
  deriving Repr, DecidableEq, Inhabited

namespace Operation

/-- The queue that the operation is for. -/
def queue : Operation → QueueId
  | pop p => p.queue
  | ack a => a.queue
  | renewal r => r.queue

/-- The kind of the operation. -/
def kind : Operation → OperationKind
  | pop _ => .pop
  | ack _ => .ack
  | renewal _ => .renewal

end Operation

end QueueLedger
