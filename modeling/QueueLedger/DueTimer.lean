import QueueLedger.Config
import QueueLedger.Host
import QueueLedger.Receipt
import QueueLedger.TimerKey
/-!
# Due timers

The timers of all queues lie in one table, in the order in which they fall due. Finding the
deliveries to hand out again is a visit of that table from its start to the present.

Design points:

* A timer whose time is the present is not due yet.
* The visit stops as soon as enough rows are found. Rows are decoded after it, so a row that
  is no timer fails the whole search.
-/

namespace QueueLedger

/-- A timer that fell due. -/
structure DueTimer where
  /-- Its key. -/
  key : TimerKey
  /-- The delivery to hand out again. -/
  receipt : Receipt
  deriving Repr, DecidableEq, Inhabited

namespace DueTimer

/-- Reads a timer row. -/
def ofRow (row : Bytes × Bytes) : Except Failure DueTimer := do
  let key ← TimerKey.decode row.1
  let receipt ← Receipt.decode row.2
  pure ⟨key, receipt⟩

/-- The first `limit` timers that are due before `now`, earliest first. -/
def find (tables : Config) (now : UInt64) (limit : Nat) (h : Host) :
    Except Failure (List DueTimer) × Host :=
  if limit = 0 then (.ok [], h)
  else
    match Host.iterate tables.timers (.upTo (TimerKey.horizon now)) (collectUpTo limit) #[] h with
    | (.error e, h') => (.error (.store e), h')
    | (.ok rows, h') => (rows.toList.mapM ofRow, h')

end DueTimer

end QueueLedger
