import QueueLedger.CheckPoint.Rows
import QueueLedger.Host
import QueueLedger.Ledger
/-!
# Calls on a ledger

A call works on a site: the ledger of one queue and the host that it shares with the others.
It gives a result or a failure, and the site afterwards.

Design points:

* The site afterwards is given with a failure too. What a failed call leaves behind is then a
  statement about a function, and not about a convention.
* A call reaches the store only through `Act.onHost`, and changes rows only through
  `submit`, in one batch. An empty batch is not sent.
-/

namespace QueueLedger

/-- What a call works on. -/
structure Site where
  /-- The ledger of the called queue. -/
  ledger : Ledger
  /-- What the ledgers of all queues share. -/
  host : Host
  deriving Inhabited

/-- A call: a result or a failure, and the site afterwards. -/
abbrev Act := ExceptT Failure (StateM Site)

namespace Act

/-- A call that goes on does so from where the first part stopped; a failure ends it there. -/
theorem bind_run {α β : Type} (x : Act α) (f : α → Act β) (s : Site) :
    (x >>= f) s =
      match x s with
      | (.ok a, s') => f a s'
      | (.error e, s') => (.error e, s') := by
  simp only [bind, ExceptT.bind, ExceptT.mk, StateT.bind, ExceptT.bindCont]
  rcases x s with ⟨e | a, s'⟩ <;> rfl

@[simp] theorem pure_run {α : Type} (a : α) (s : Site) : (pure a : Act α) s = (.ok a, s) := rfl

/-- The ledger. -/
def ledger : Act Ledger := fun s => (.ok s.ledger, s)

/-- Changes the ledger. -/
def change (f : Ledger → Ledger) : Act Unit := fun s => (.ok (), { s with ledger := f s.ledger })

/-- Goes on with a value, or stops with a failure. -/
def ofExcept {α : Type} (r : Except Failure α) : Act α := fun s => (r, s)

/-- Makes a call on the host. A fault becomes a failure. -/
def onHost {α : Type} (x : Hosted α) : Act α := fun s =>
  match x s.host with
  | (.ok a, h) => (.ok a, { s with host := h })
  | (.error e, h) => (.error (.store e), { s with host := h })

/-- Tells the journal. -/
def tell (n : Notice) : Act Unit := fun s => (.ok (), { s with host := s.host.tell n })

/-- Changes the counters. -/
def count (f : Tally → Tally) : Act Unit := fun s => (.ok (), { s with host := s.host.count f })

/-- Makes a call whose notices belong to a scope. The scope is closed in any case. -/
def within {α : Type} (scope : Scope) (x : Act α) : Act α := fun s =>
  let (r, s') := x { s with host := s.host.inScope (some scope) }
  (r, { s' with host := s'.host.inScope none })

/-- Makes a call that replays an operation, and counts and reports how it went. -/
def observed (kind : OperationKind) (operation : UInt64) (x : Act Unit) : Act Unit := fun s =>
  match x s with
  | (.ok (), s') => (.ok (), { s' with host := s'.host.count (·.countReplay kind false) })
  | (.error e, s') =>
    let host := s'.host.count (·.countReplay kind true)
    (.error e, { s' with host := host.tell (.failed s'.ledger.queue operation kind e) })

@[simp] theorem ledger_run (s : Site) : ledger s = (.ok s.ledger, s) := rfl

@[simp] theorem ofExcept_run {α : Type} (r : Except Failure α) (s : Site) :
    ofExcept r s = (r, s) := rfl

/-! ### The rows of the queue -/

/-- Applies requests in one batch. -/
def submit (requests : List Request) : Act Unit :=
  if requests.isEmpty then pure () else onHost (Host.batch requests)

/-- The rows of check points of the queue, in ascending order of operation ids. -/
def checkPointRows : Act (List (Bytes × Bytes)) := do
  let l ← ledger
  let rows ← onHost
    (Host.iterate l.config.checkPoints (.under (CheckPoint.scope l.queue)) collectAll #[])
  pure rows.toList

/-- The check points of the queue, in ascending order of operation ids. -/
def scan : Act (List CheckPoint) := do
  let rows ← checkPointRows
  ofExcept (rows.mapM fun (_, value) => CheckPoint.decode value)

/-- The check point that an operation left. -/
def find (operation : UInt64) : Act CheckPoint := do
  let l ← ledger
  match ← onHost (Host.get l.config.checkPoints (CheckPoint.keyOf l.queue operation)) with
  | some value => ofExcept (CheckPoint.decode value)
  | none => ofExcept (.error (.checkPointNotFound l.queue operation))

/-- The value of the lock of an offset. -/
def lockRow (group offset : UInt64) : Act (Option Bytes) := do
  let l ← ledger
  onHost (Host.get l.config.locks (OrderLock.key group l.queue offset))

@[simp] theorem submit_nil : submit [] = pure () := rfl

theorem submit_of_ne_nil {requests : List Request} (h : requests ≠ []) :
    submit requests = onHost (Host.batch requests) := by
  cases requests with
  | nil => exact absurd rfl h
  | cons q qs => rfl

/-! ### The groups of the queue -/

/-- Records the acknowledgment of an offset by a group. -/
def commit (group : UInt64) (path : Path) (offset : UInt64) : Act Unit := fun s =>
  match s.ledger.commit group path offset with
  | .error e => (.error e, s)
  | .ok (l, c) =>
    let before := ((s.ledger.group group).watermark path).ackOffset
    let host := s.host.count (·.countRebases c.rebases)
    let host := match c.advanced with
      | some mark => host.tell (.advanced before mark)
      | none => host
    (.ok (), ⟨l, host⟩)

/-- Records the acknowledgment of a batch by a group. -/
def commitAll (group : UInt64) (path : Path) (b : Batch) : Act Unit := b.visit (commit group path)

end Act

end QueueLedger
