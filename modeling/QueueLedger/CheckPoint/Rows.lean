import QueueLedger.CheckPoint
import QueueLedger.Config
import QueueLedger.Store
/-!
# The rows of a delivery

A delivery in flight stands in three tables: its check point, its timer with its receipt, and
one lock an offset if it is ordered. This module writes and removes these rows as requests.

Design points:

* `puts` and `deletes` address the same rows in the same order (`address_puts`), so a batch
  that deletes after putting, or puts after deleting, touches nothing else.
* A renewal removes the timer before it writes the new one: when both have the same key, the
  new one stays.
-/

namespace QueueLedger.CheckPoint

/-- The requests that write the rows of a delivery. -/
def puts (c : CheckPoint) (tables : Config) : List Request :=
  .put tables.checkPoints c.key c.encode ::
    .put tables.timers c.timerKey.encode c.receipt.encode ::
    c.lockKeys.map fun key => .put tables.locks key (OrderLock.value c.operation)

/-- The requests that remove the rows of a delivery. -/
def deletes (c : CheckPoint) (tables : Config) : List Request :=
  .delete tables.checkPoints c.key ::
    .delete tables.timers c.timerKey.encode ::
    c.lockKeys.map fun key => .delete tables.locks key

/-- The requests that move a delivery to another time of visibility. -/
def moves (c : CheckPoint) (tables : Config) (nextVisible : UInt64) : List Request :=
  let c' := c.renewed nextVisible
  [.delete tables.timers c.timerKey.encode,
    .put tables.checkPoints c'.key c'.encode,
    .put tables.timers c'.timerKey.encode c'.receipt.encode]

/-- Writing and removing a delivery address the same rows. -/
theorem address_puts (c : CheckPoint) (tables : Config) :
    (c.puts tables).map Request.address = (c.deletes tables).map Request.address := by
  simp [puts, deletes, Request.address, Request.space, Request.key, Function.comp_def]

end QueueLedger.CheckPoint
