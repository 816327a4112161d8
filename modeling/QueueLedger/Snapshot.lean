import QueueLedger.ConsumerGroup
/-!
# Snapshots

A snapshot is the unit of recovery of one queue: the last operation it covers, the version
of the store's view that was pinned with it, the images of its consumer groups, and the
check points in flight.
-/

namespace QueueLedger

/-- The state of one queue at one point of its operation log. -/
structure Snapshot where
  /-- The id of the last operation applied before, if any was. -/
  cursor : Option UInt64
  /-- The version of the store's view. -/
  storeVersion : UInt64
  /-- The consumer groups. -/
  groups : List GroupImage
  /-- The deliveries in flight. -/
  checkPoints : List CheckPoint
  deriving Repr, DecidableEq, Inhabited

end QueueLedger
