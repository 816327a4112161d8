import QueueLedger.Operation
import QueueLedger.OrderLock
import QueueLedger.Receipt
import QueueLedger.TimerKey
/-!
# Check points

A check point records one delivery in flight: what was delivered to whom, and when it
becomes visible again. It is stored under its queue and the operation id of its pop.

Design points:

* The stored record has 62 bytes, begins with a format version, and is big-endian
  throughout. A pop kind that does not exist is refused, so reading accepts exactly what
  writing produces.
* All other rows of a delivery are derived from its check point: the timer key, the
  receipt in the timer row, and the keys of its order locks.
-/

namespace QueueLedger

/-- The record of one delivery in flight. -/
structure CheckPoint where
  /-- The queue of the messages. -/
  queue : QueueId
  /-- The last offset of the batch. -/
  offset : UInt64
  /-- The number of messages. -/
  count : UInt32
  /-- The consumer group. -/
  group : UInt64
  /-- The operation id of the pop. -/
  operation : UInt64
  /-- How the messages were delivered. -/
  kind : PopKind
  /-- The time of the delivery. -/
  delivered : UInt64
  /-- The time at which the delivery becomes visible again. -/
  nextVisible : UInt64
  /-- How often the messages were delivered before. -/
  reconsume : UInt32
  deriving Repr, DecidableEq, Inhabited

namespace CheckPoint

/-- The check point that a pop leaves under its operation id. -/
def ofPop (operation : UInt64) (p : Pop) : CheckPoint where
  queue := p.queue
  offset := p.offset
  count := p.count
  group := p.group
  operation := operation
  kind := p.kind
  delivered := p.time
  nextVisible := p.nextVisible
  reconsume := p.reconsume

/-- The offsets of the delivery. -/
def batch (c : CheckPoint) : Batch := .ending c.offset c.count

/-- The same delivery, visible again at another time. -/
def renewed (c : CheckPoint) (nextVisible : UInt64) : CheckPoint :=
  { c with nextVisible := nextVisible }

/-- The receipt of the delivery. -/
def receipt (c : CheckPoint) : Receipt := ⟨c.group, c.queue, c.offset, c.operation⟩

/-- The key of the delivery's timer row. -/
def timerKey (c : CheckPoint) : TimerKey := ⟨c.nextVisible, c.queue, c.operation⟩

/-- The number of locks of the delivery: one an offset if it is ordered, else none. -/
def lockCount (c : CheckPoint) : Nat := if c.kind = .order then c.batch.size else 0

/-- The keys of the first `k` locks of the delivery, in ascending order of offsets. -/
def firstLockKeys (c : CheckPoint) (k : Nat) : List Bytes :=
  (Batch.run c.batch.first.toNat (min k c.lockCount)).map (OrderLock.key c.group c.queue)

/-- The keys of the locks of the delivery. -/
def lockKeys (c : CheckPoint) : List Bytes := c.firstLockKeys c.lockCount

/-! ### Keys and records -/

/-- The leading bytes of the keys of all check points of a queue. -/
def scope (q : QueueId) : Bytes := BigEndian.put64 q.topic ++ BigEndian.put32 q.queue

/-- The key of the check point of an operation. -/
def keyOf (q : QueueId) (operation : UInt64) : Bytes :=
  BigEndian.put64 q.topic ++ (BigEndian.put32 q.queue ++ BigEndian.put64 operation)

/-- The key of the check point. -/
def key (c : CheckPoint) : Bytes := keyOf c.queue c.operation

/-- The word that decoding faults use for the record. -/
def what : String := "check point"

/-- The only known version of the record. -/
def formatVersion : UInt8 := 1

/-- The length of the record in bytes. -/
def width : Nat := 62

/-- The record's bytes. -/
def encode (c : CheckPoint) : Bytes :=
  formatVersion :: (BigEndian.put64 c.queue.topic ++ (BigEndian.put32 c.queue.queue ++
    (BigEndian.put64 c.offset ++ (BigEndian.put32 c.count ++ (BigEndian.put64 c.group ++
      (BigEndian.put64 c.operation ++ (c.kind.tag :: (BigEndian.put64 c.delivered ++
        (BigEndian.put64 c.nextVisible ++ BigEndian.put32 c.reconsume)))))))))

/-- The fields of a record of the right length. -/
def ofFields (b : Bytes) : Except Failure CheckPoint :=
  let (version, b) := BigEndian.split8 b
  if version ≠ formatVersion then .error (.decode what (.version version))
  else
    let (topic, b) := BigEndian.split64 b
    let (queue, b) := BigEndian.split32 b
    let (offset, b) := BigEndian.split64 b
    let (count, b) := BigEndian.split32 b
    let (group, b) := BigEndian.split64 b
    let (operation, b) := BigEndian.split64 b
    let (tag, b) := BigEndian.split8 b
    match PopKind.ofTag? tag with
    | none => .error (.decode what (.popType tag))
    | some kind =>
      let (delivered, b) := BigEndian.split64 b
      let (nextVisible, b) := BigEndian.split64 b
      let (reconsume, _) := BigEndian.split32 b
      .ok ⟨⟨topic, queue⟩, offset, count, group, operation, kind, delivered, nextVisible, reconsume⟩

/-- Reads a record. -/
def decode (b : Bytes) : Except Failure CheckPoint :=
  if b.length = width then ofFields b
  else .error (.decode what (.length width b.length))

@[simp] theorem length_encode (c : CheckPoint) : c.encode.length = width := by
  simp [encode, width]

@[simp] theorem decode_encode (c : CheckPoint) : decode c.encode = .ok c := by
  have fields : ofFields c.encode = .ok c := by
    have last := BigEndian.split32_put32 c.reconsume []
    rw [List.append_nil] at last
    simp [ofFields, encode, last]
  rw [decode, if_pos (length_encode c), fields]

end CheckPoint

end QueueLedger
