import QueueLedger.Bytes.Varint
import QueueLedger.Snapshot
/-!
# The bytes of a snapshot

A snapshot is written field by field. Integers take the variable-width form, a list is its
length and its items, an optional value is a byte 0, or a byte 1 and the value, and bitmaps
are copied byte for byte after their length.

Design points:

* Nothing marks the end: a reader knows from what it has read how much is to come. So input
  that stops early is refused, and what follows a snapshot is ignored.
* Each writer stands beside its reader, and both name the fields in the same order.
-/

namespace QueueLedger.Snapshot.Wire

/-! ### Lists and optional values -/

/-- A list: its length and its items. -/
def putList {α : Type} (put : α → Bytes) (l : List α) : Bytes :=
  Varint.encode l.length ++ l.flatMap put

/-- Reads a list. -/
def readList {α : Type} (read : Reader α) : Reader (List α) := fun b =>
  match Varint.read 8 b with
  | none => none
  | some (n, rest) => Reader.times read n rest

/-- A string of bytes: its length and the bytes. -/
def putBytes (l : Bytes) : Bytes := Varint.encode l.length ++ l

/-- Reads a string of bytes. -/
def readBytes : Reader Bytes := fun b =>
  match Varint.read 8 b with
  | none => none
  | some (n, rest) => Reader.take n rest

/-- An optional word. -/
def putOption : Option UInt64 → Bytes
  | none => [0]
  | some n => 1 :: Varint.put64 n

/-- Reads an optional word. -/
def readOption : Reader (Option UInt64)
  | [] => none
  | flag :: rest =>
    if flag = 0 then some (none, rest)
    else if flag = 1 then
      match Varint.read64 rest with
      | some (n, rest') => some (some n, rest')
      | none => none
    else none

/-! ### Records -/

/-- A pop kind: its number. -/
def putKind (k : PopKind) : Bytes := Varint.encode k.tag.toNat

/-- Reads a pop kind. -/
def readKind : Reader PopKind :=
  Reader.accept (fun n => if n < 256 then PopKind.ofTag? (UInt8.ofNat n) else none) (Varint.read 4)

/-- A check point: its fields in order. -/
def putCheckPoint (c : CheckPoint) : Bytes :=
  Varint.put64 c.queue.topic ++ (Varint.put32 c.queue.queue ++ (Varint.put64 c.offset ++
    (Varint.put32 c.count ++ (Varint.put64 c.group ++ (Varint.put64 c.operation ++
      (putKind c.kind ++ (Varint.put64 c.delivered ++ (Varint.put64 c.nextVisible ++
        Varint.put32 c.reconsume))))))))

/-- Reads a check point. -/
def readCheckPoint : Reader CheckPoint := do
  let topic ← Varint.read64
  let queue ← Varint.read32
  let offset ← Varint.read64
  let count ← Varint.read32
  let group ← Varint.read64
  let operation ← Varint.read64
  let kind ← readKind
  let delivered ← Varint.read64
  let nextVisible ← Varint.read64
  let reconsume ← Varint.read32
  pure ⟨⟨topic, queue⟩, offset, count, group, operation, kind, delivered, nextVisible, reconsume⟩

/-- A consumer group: its counters, and a base and a bitmap for each path. -/
def putGroup (g : GroupImage) : Bytes :=
  Varint.put64 g.counters.group ++ (Varint.put64 g.counters.consume ++
    (Varint.put64 g.counters.ack ++ (Varint.put64 g.counters.retryConsume ++
      (Varint.put64 g.counters.retryAck ++ (Varint.put64 g.base ++ (putBytes g.bitmap ++
        (Varint.put64 g.retryBase ++ putBytes g.retryBitmap)))))))

/-- Reads a consumer group. -/
def readGroup : Reader GroupImage := do
  let group ← Varint.read64
  let consume ← Varint.read64
  let ack ← Varint.read64
  let retryConsume ← Varint.read64
  let retryAck ← Varint.read64
  let base ← Varint.read64
  let bitmap ← readBytes
  let retryBase ← Varint.read64
  let retryBitmap ← readBytes
  pure ⟨⟨group, consume, ack, retryConsume, retryAck⟩, base, bitmap, retryBase, retryBitmap⟩

/-- Reads a snapshot. -/
def readSnapshot : Reader Snapshot := do
  let cursor ← readOption
  let storeVersion ← Varint.read64
  let groups ← readList readGroup
  let checkPoints ← readList readCheckPoint
  pure ⟨cursor, storeVersion, groups, checkPoints⟩

end QueueLedger.Snapshot.Wire

namespace QueueLedger.Snapshot

/-- The snapshot's bytes. -/
def encode (s : Snapshot) : Bytes :=
  Wire.putOption s.cursor ++ (Varint.put64 s.storeVersion ++
    (Wire.putList Wire.putGroup s.groups ++ Wire.putList Wire.putCheckPoint s.checkPoints))

/-- Reads a snapshot, whatever follows it. -/
def decode (b : Bytes) : Except Failure Snapshot :=
  match Wire.readSnapshot b with
  | some (s, _) => .ok s
  | none => .error (.snapshotDecode .malformed)

end QueueLedger.Snapshot
