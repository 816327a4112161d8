import QueueLedger.CheckPoint
import QueueLedger.Watermark
/-!
# Consumer groups

For each consumer group a queue keeps four counters, a consume offset and an ack offset on
each delivery path, and the watermarks that the ack offsets come from.

Design points:

* Counters only grow: a consume offset is raised to a maximum (`advance`), and an ack offset
  follows its watermark (`Group.commit`).
* A group's image is what a snapshot stores of it: the counters, and for each path the base
  of the watermark and the bytes of its bitmap.
-/

namespace QueueLedger

/-- The counters of one consumer group on one queue. -/
structure GroupCounters where
  /-- The consumer group. -/
  group : UInt64
  /-- One past the highest offset delivered from the data stream. -/
  consume : UInt64
  /-- The offset below which the data stream is acknowledged. -/
  ack : UInt64
  /-- One past the highest offset delivered from the retry stream. -/
  retryConsume : UInt64
  /-- The offset below which the retry stream is acknowledged. -/
  retryAck : UInt64
  deriving Repr, DecidableEq, Inhabited

namespace GroupCounters

/-- The counters of a group that nothing was delivered to. -/
def zero (group : UInt64) : GroupCounters := ⟨group, 0, 0, 0, 0⟩

/-- Raises the consume offset of a path to `next`. -/
def advance (c : GroupCounters) (path : Path) (next : UInt64) : GroupCounters :=
  match path with
  | .data => { c with consume := max c.consume next }
  | .retry => { c with retryConsume := max c.retryConsume next }

/-- Sets the ack offset of a path. -/
def withAck (c : GroupCounters) (path : Path) (mark : UInt64) : GroupCounters :=
  match path with
  | .data => { c with ack := mark }
  | .retry => { c with retryAck := mark }

/-- The consume offset of a path. -/
def consumed (c : GroupCounters) : Path → UInt64
  | .data => c.consume
  | .retry => c.retryConsume

/-- The ack offset of a path. -/
def acked (c : GroupCounters) : Path → UInt64
  | .data => c.ack
  | .retry => c.retryAck

@[simp] theorem group_advance (c : GroupCounters) (path : Path) (next : UInt64) :
    (c.advance path next).group = c.group := by
  cases path <;> rfl

@[simp] theorem acked_advance (c : GroupCounters) (path other : Path) (next : UInt64) :
    (c.advance path next).acked other = c.acked other := by
  cases path <;> cases other <;> rfl

@[simp] theorem consumed_advance (c : GroupCounters) (path other : Path) (next : UInt64) :
    (c.advance path next).consumed other =
      if path = other then max (c.consumed other) next else c.consumed other := by
  cases path <;> cases other <;> rfl

@[simp] theorem consumed_withAck (c : GroupCounters) (path other : Path) (mark : UInt64) :
    (c.withAck path mark).consumed other = c.consumed other := by
  cases path <;> cases other <;> rfl

@[simp] theorem group_withAck (c : GroupCounters) (path : Path) (mark : UInt64) :
    (c.withAck path mark).group = c.group := by
  cases path <;> rfl

@[simp] theorem acked_withAck (c : GroupCounters) (path other : Path) (mark : UInt64) :
    (c.withAck path mark).acked other = if path = other then mark else c.acked other := by
  cases path <;> cases other <;> rfl

end GroupCounters

/-- What a snapshot stores of a consumer group. -/
structure GroupImage where
  /-- The counters. -/
  counters : GroupCounters
  /-- The base of the data watermark. -/
  base : UInt64
  /-- The bitmap of the data watermark. -/
  bitmap : Bytes
  /-- The base of the retry watermark. -/
  retryBase : UInt64
  /-- The bitmap of the retry watermark. -/
  retryBitmap : Bytes
  deriving Repr, DecidableEq, Inhabited

/-- The state of one consumer group on one queue. -/
structure Group where
  /-- The counters. -/
  counters : GroupCounters
  /-- The acknowledgments of the data stream. -/
  data : Watermark
  /-- The acknowledgments of the retry stream. -/
  retry : Watermark
  deriving Inhabited

namespace Group

/-- The state of a group that nothing was delivered to. -/
def fresh (group threshold : UInt64) : Group :=
  ⟨.zero group, .start 0 threshold, .start 0 threshold⟩

/-- The acknowledgments of a path. -/
def watermark (g : Group) : Path → Watermark
  | .data => g.data
  | .retry => g.retry

/-- The group with the acknowledgments of a path replaced. -/
def withWatermark (g : Group) (path : Path) (w : Watermark) : Group :=
  match path with
  | .data => { g with data := w }
  | .retry => { g with retry := w }

/-- Raises the consume offset of a path to `next`. -/
def advance (g : Group) (path : Path) (next : UInt64) : Group :=
  { g with counters := g.counters.advance path next }

/-- Records the acknowledgment of an offset, and lets the ack offset follow the mark. -/
def commit (g : Group) (path : Path) (offset : UInt64) :
    Except Failure (Group × Watermark.Commit) :=
  match (g.watermark path).commit offset with
  | .error e => .error e
  | .ok c =>
    let g' := g.withWatermark path c.next
    match c.advanced with
    | some mark => .ok ({ g' with counters := g'.counters.withAck path mark }, c)
    | none => .ok (g', c)

/-- The image of the group. -/
def image (g : Group) : GroupImage :=
  ⟨g.counters, g.data.base, g.data.bitmapBytes, g.retry.base, g.retry.bitmapBytes⟩

/-- The group that an image describes. -/
def restore (i : GroupImage) (threshold : UInt64) : Except Failure Group :=
  match Watermark.restore i.counters.ack i.base i.bitmap threshold with
  | .error e => .error e
  | .ok data =>
    match Watermark.restore i.counters.retryAck i.retryBase i.retryBitmap threshold with
    | .error e => .error e
    | .ok retry => .ok ⟨i.counters, data, retry⟩

@[simp] theorem watermark_advance (g : Group) (path other : Path) (next : UInt64) :
    (g.advance path next).watermark other = g.watermark other := by
  cases other <;> rfl

@[simp] theorem watermark_withWatermark (g : Group) (path other : Path) (w : Watermark) :
    (g.withWatermark path w).watermark other = if path = other then w else g.watermark other := by
  cases path <;> cases other <;> rfl

@[simp] theorem counters_withWatermark (g : Group) (path : Path) (w : Watermark) :
    (g.withWatermark path w).counters = g.counters := by
  cases path <;> rfl

@[simp] theorem watermark_withCounters (g : Group) (c : GroupCounters) (other : Path) :
    ({ g with counters := c } : Group).watermark other = g.watermark other := by
  cases other <;> rfl

end Group

end QueueLedger
