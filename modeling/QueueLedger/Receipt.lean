import QueueLedger.Bytes.BigEndian
import QueueLedger.Bytes.Hex
import QueueLedger.Failure
/-!
# Receipts

A receipt names one delivery in flight. The consumer hands it back to settle or to renew
the delivery, and the delivery's timer row holds it.

Design points:

* The record is 36 bytes of big-endian fields; the printed form is its lowercase
  hexadecimal text.
* A text is read pair by pair under the rule of `Hex.pair?`. So a pair may be a plus sign
  and one digit, and such a text denotes the same receipt as one with a zero digit.
-/

namespace QueueLedger

/-- The address of one delivery. -/
structure Receipt where
  /-- The consumer group. -/
  group : UInt64
  /-- The queue. -/
  queue : QueueId
  /-- The last offset of the batch. -/
  offset : UInt64
  /-- The operation id of the pop. -/
  operation : UInt64
  deriving Repr, DecidableEq, Inhabited

namespace Receipt

/-- The word that decoding faults use for the record. -/
def what : String := "receipt handle"

/-- The length of the record in bytes. -/
def width : Nat := 36

/-- The record's bytes. -/
def encode (r : Receipt) : Bytes :=
  BigEndian.put64 r.group ++ (BigEndian.put64 r.queue.topic ++ (BigEndian.put32 r.queue.queue ++
    (BigEndian.put64 r.offset ++ BigEndian.put64 r.operation)))

/-- The fields of a record of the right length. -/
def ofFields (b : Bytes) : Receipt :=
  let (group, b) := BigEndian.split64 b
  let (topic, b) := BigEndian.split64 b
  let (queue, b) := BigEndian.split32 b
  let (offset, b) := BigEndian.split64 b
  let (operation, _) := BigEndian.split64 b
  ⟨group, ⟨topic, queue⟩, offset, operation⟩

/-- Reads a record. -/
def decode (b : Bytes) : Except Failure Receipt :=
  if b.length = width then .ok (ofFields b)
  else .error (.decode what (.length width b.length))

/-- The printed form. -/
def text (r : Receipt) : String := Hex.encode r.encode

/-- Reads a printed form. -/
def parse (s : String) : Except Failure Receipt :=
  if s.utf8ByteSize = 2 * width ∧ s.toList.all fun c => c.toNat < 128 then
    match Hex.readPairs Hex.pair? s.toList with
    | some b => decode b
    | none => .error (.decode what .digit)
  else .error (.decode what (.digitCount (2 * width)))

@[simp] theorem length_encode (r : Receipt) : r.encode.length = width := by
  simp [encode, width]

@[simp] theorem decode_encode (r : Receipt) : decode r.encode = .ok r := by
  have fields : ofFields r.encode = r := by
    have last := BigEndian.split64_put64 r.operation []
    rw [List.append_nil] at last
    simp [ofFields, encode, last]
  rw [decode, if_pos (length_encode r), fields]

end Receipt

end QueueLedger
