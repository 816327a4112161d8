import QueueLedger.Bytes.BigEndian
import QueueLedger.Failure
/-!
# Timer keys

Every delivery in flight has a timer row. Its key starts with the time at which the
delivery becomes visible again, so the rows of a store lie in the order in which they fall
due, and all rows due before a time lie before the bytes of that time.
-/

namespace QueueLedger

/-- The key of a timer row. -/
structure TimerKey where
  /-- The time at which the delivery becomes visible again. -/
  due : UInt64
  /-- The queue of the delivery. -/
  queue : QueueId
  /-- The operation id of the pop. -/
  operation : UInt64
  deriving Repr, DecidableEq, Inhabited

namespace TimerKey

/-- Timer keys are ordered by due time, then by queue, then by operation id. -/
instance : Ord TimerKey :=
  ⟨compareLex (compareOn due) (compareLex (compareOn queue) (compareOn operation))⟩

instance : Std.TransOrd TimerKey :=
  inferInstanceAs (Std.TransCmp
    (compareLex (compareOn due) (compareLex (compareOn queue) (compareOn operation))))

/-- The word that decoding faults use for the record. -/
def what : String := "timer tag key"

/-- The length of a key in bytes. -/
def width : Nat := 28

/-- The key's bytes. -/
def encode (k : TimerKey) : Bytes :=
  BigEndian.put64 k.due ++ (BigEndian.put64 k.queue.topic ++ (BigEndian.put32 k.queue.queue ++
    BigEndian.put64 k.operation))

/-- The fields of a key of the right length. -/
def ofFields (b : Bytes) : TimerKey :=
  let (due, b) := BigEndian.split64 b
  let (topic, b) := BigEndian.split64 b
  let (queue, b) := BigEndian.split32 b
  let (operation, _) := BigEndian.split64 b
  ⟨due, ⟨topic, queue⟩, operation⟩

/-- Reads a key. -/
def decode (b : Bytes) : Except Failure TimerKey :=
  if b.length = width then .ok (ofFields b)
  else .error (.decode what (.length width b.length))

/-- The bytes before which all keys due before `now` lie. -/
def horizon (now : UInt64) : Bytes := BigEndian.put64 now

@[simp] theorem length_encode (k : TimerKey) : k.encode.length = width := by
  simp [encode, width]

@[simp] theorem decode_encode (k : TimerKey) : decode k.encode = .ok k := by
  have fields : ofFields k.encode = k := by
    have last := BigEndian.split64_put64 k.operation []
    rw [List.append_nil] at last
    simp [ofFields, encode, last]
  rw [decode, if_pos (length_encode k), fields]

end TimerKey

end QueueLedger
