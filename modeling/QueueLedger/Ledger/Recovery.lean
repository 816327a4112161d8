import QueueLedger.Ledger.Act
import QueueLedger.Snapshot
/-!
# Snapshots, recovery and clearing

A ledger is carried over to another place by a snapshot: taking one reads the groups and the
check points, loading one replaces both. Clearing leaves nothing of the queue.

Design points:

* A snapshot is checked before anything is written: its bitmaps must be readable, and its
  check points must be of this queue.
* Loading writes one batch. It first removes the deliveries that the snapshot does not hold as
  they are, with their timers and locks, and then writes all deliveries of the snapshot.
* Taking a snapshot pins a view of the store, which stays until `release` is called.
-/

namespace QueueLedger.Act

/-- Takes a snapshot of the queue. -/
def takeSnapshot : Act Snapshot := do
  let l ← ledger
  within (.takeSnapshot l.queue) do
    count (·.countAdmin .snapshot)
    let images := l.images
    let checkPoints ← scan
    let version ← onHost Host.pin
    tell (.tookSnapshot l.cursor version images.length checkPoints.length)
    pure ⟨l.cursor, version, images, checkPoints⟩

/-- The requests that replace some deliveries by others, where those to go are removed
first. -/
def replacement (tables : Config) (gone wanted : List CheckPoint) : List Request :=
  gone.flatMap (·.deletes tables) ++ wanted.flatMap (·.puts tables)

/-- Replaces the state of the queue by that of a snapshot. -/
def loadSnapshot (s : Snapshot) : Act Unit := do
  let l ← ledger
  within (.loadSnapshot l.queue s.cursor) do
    count (·.countAdmin .load)
    let groups ← ofExcept (Ledger.restoreGroups l.config s.groups)
    ofExcept (Ledger.checkOwn l.queue s.checkPoints)
    let existing ← scan
    let gone := Ledger.outdated existing s.checkPoints
    let rows := gone.flatMap (·.deletes l.config)
    if rows.isEmpty then pure () else tell (.dropping rows.length)
    submit (replacement l.config gone s.checkPoints)
    change fun l => { l with groups := groups, cursor := s.cursor }
    tell (.loadedSnapshot groups.size s.checkPoints.length)

/-- Removes every trace of the queue. -/
def clear : Act Unit := do
  let l ← ledger
  within (.clear l.queue) do
    count (·.countAdmin .clear)
    let existing ← scan
    submit (replacement l.config existing [])
    change fun l => .empty l.queue l.config
    tell (.cleared existing.length)

/-- Lets go of the view that a snapshot pinned, and says whether it was held. -/
def release (s : Snapshot) : Act Bool := do
  let l ← ledger
  let held ← onHost (Host.release s.storeVersion)
  tell (.releasedSnapshot l.queue s.storeVersion held)
  pure held

/-! ### Looking at a queue -/

/-- The deliveries in flight, in ascending order of operation ids. -/
def checkPoints : Act (List CheckPoint) := scan

/-- The number of deliveries in flight. -/
def checkPointCount : Act Nat := do
  let rows ← checkPointRows
  pure rows.length

/-- Whether an offset is locked for a group. -/
def isLocked (group offset : UInt64) : Act Bool := do
  let row ← lockRow group offset
  pure row.isSome

end QueueLedger.Act
