import QueueLedger.Ledger.Act
/-!
# Replaying operations

Replaying an operation moves a ledger and the rows of its queue by one step of the operation
log. All checks come first, then one batch on the store, then the ledger.

Design points:

* A pop with an end mark was acknowledged when it was logged. It leaves no rows; its offsets
  are recorded at once.
* An ordered pop is refused while another operation owns a lock of its offsets. A lock that
  the same operation owns is no obstacle, so the pop can be tried again.
* The window of a batch is checked against the group before the batch is sent. The mark only
  rises while the offsets are recorded one by one, so none of them leaves the window on the
  way.
-/

namespace QueueLedger.Act

/-- Refuses a delivery one of whose offsets is locked by another operation. Only ordered
deliveries have locks. -/
def checkUnlocked (c : CheckPoint) : Act Unit := do
  let l ← ledger
  c.lockKeys.forM fun key => do
    match ← onHost (Host.get l.config.locks key) with
    | none => pure ()
    | some value =>
      let owner ← ofExcept (OrderLock.owner value)
      if owner = c.operation then pure ()
      else ofExcept (.error (.illegalArgument (.locked c.offset owner)))

/-- Refuses a batch that a group cannot record. -/
def checkWindow (group : UInt64) (path : Path) (b : Batch) : Act Unit := do
  let l ← ledger
  ofExcept (l.checkWindow group path b)

/-- Refuses an operation whose turn it is not. -/
def checkTurn (operation : UInt64) (queue : QueueId) : Act Unit := do
  let l ← ledger
  ofExcept (l.checkTurn operation queue)

/-- Applies a pop of messages that were acknowledged already. -/
def popEndMark (p : Pop) : Act Unit := do
  checkWindow p.group p.kind.path p.batch
  change (·.deliver p.group p.kind.path p.offset)
  commitAll p.group p.kind.path p.batch

/-- Applies a pop that leaves a delivery in flight. -/
def popInFlight (operation : UInt64) (p : Pop) : Act Unit := do
  let l ← ledger
  let c := CheckPoint.ofPop operation p
  checkUnlocked c
  submit (c.puts l.config)
  change (·.deliver p.group p.kind.path p.offset)

/-- Applies a pop. -/
def pop (operation : UInt64) (p : Pop) : Act Unit := do
  checkTurn operation p.queue
  ofExcept p.check
  tell (.popping operation p)
  if p.endMark then popEndMark p else popInFlight operation p
  change (·.withCursor operation)

/-- Applies an acknowledgment. -/
def ack (operation : UInt64) (a : Ack) : Act Unit := do
  checkTurn operation a.queue
  tell (.acking operation a)
  let l ← ledger
  let c ← find a.target
  match settlingPath c.kind a.kind with
  | none => submit (c.deletes l.config)
  | some path =>
    checkWindow c.group path c.batch
    submit (c.deletes l.config)
    commitAll c.group path c.batch
  change (·.withCursor operation)

/-- Applies a renewal. -/
def renew (operation : UInt64) (r : Renewal) : Act Unit := do
  checkTurn operation r.queue
  tell (.renewing operation r)
  let l ← ledger
  let c ← find r.target
  submit (c.moves l.config r.nextVisible)
  change (·.withCursor operation)

/-- Applies an operation, unobserved. -/
def apply (operation : UInt64) : Operation → Act Unit
  | .pop p => pop operation p
  | .ack a => ack operation a
  | .renewal r => renew operation r

/-- Replays the operation that is logged under an id. -/
def replay (operation : UInt64) (o : Operation) : Act Unit :=
  observed o.kind operation (apply operation o)

end QueueLedger.Act
