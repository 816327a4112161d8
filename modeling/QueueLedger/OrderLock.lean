import QueueLedger.Bytes.BigEndian
import QueueLedger.Failure
/-!
# Order locks

While an ordered delivery is in flight, each of its offsets is locked for its consumer
group: there is a lock row under the group, the queue and the offset, and its value is the
operation id that owns the lock.
-/

namespace QueueLedger.OrderLock

/-- The word that decoding faults use for a lock's value. -/
def what : String := "order index value"

/-- The key of the lock of one offset. -/
def key (group : UInt64) (queue : QueueId) (offset : UInt64) : Bytes :=
  BigEndian.put64 group ++ (BigEndian.put64 queue.topic ++ (BigEndian.put32 queue.queue ++
    BigEndian.put64 offset))

/-- The value of a lock: its owner. -/
def value (owner : UInt64) : Bytes := BigEndian.put64 owner

/-- Reads the owner of a lock. -/
def owner (b : Bytes) : Except Failure UInt64 :=
  if b.length = 8 then .ok (BigEndian.split64 b).1
  else .error (.decode what (.length 8 b.length))

@[simp] theorem owner_value (n : UInt64) : owner (value n) = .ok n := by
  have last := BigEndian.split64_put64 n []
  rw [List.append_nil] at last
  simp [owner, value, last]

end QueueLedger.OrderLock
