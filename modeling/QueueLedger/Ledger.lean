import QueueLedger.Config
import QueueLedger.ConsumerGroup
/-!
# Ledgers

A ledger holds what one queue remembers beside the rows in the store: the state of its
consumer groups, and the id of the operation that it applied last.

Design points:

* A group that nothing was delivered to is not in the ledger and reads as a fresh one
  (`Ledger.group`). Reading a ledger never adds a group.
* It is the turn of an operation if it is for this queue and not behind the last one applied.
  Applying the same operation id again is allowed, so an operation can be tried again.
* Everything here is a function on the ledger. Calls on the store are added in
  `QueueLedger.Ledger.Act`.
-/

namespace QueueLedger

/-- The memory of one queue. -/
structure Ledger where
  /-- The queue. -/
  queue : QueueId
  /-- The options that the queue shares with all others. -/
  config : Config
  /-- The consumer groups by id. -/
  groups : Std.ExtTreeMap UInt64 Group
  /-- The id of the operation that was applied last. -/
  cursor : Option UInt64

namespace Ledger

/-- The ledger of a queue to which no operation was applied. -/
def empty (queue : QueueId) (config : Config) : Ledger := ⟨queue, config, ∅, none⟩

instance : Inhabited Ledger := ⟨empty default default⟩

/-- The state of a group, fresh if it is not known. -/
def group (l : Ledger) (g : UInt64) : Group :=
  (l.groups.get? g).getD (.fresh g l.config.rebaseThreshold)

/-- The counters of a group, zero if it is not known. -/
def counters (l : Ledger) (g : UInt64) : GroupCounters := (l.group g).counters

/-- Replaces the state of a group. -/
def withGroup (l : Ledger) (g : UInt64) (s : Group) : Ledger :=
  { l with groups := l.groups.insert g s }

/-- Remembers an operation as the last one applied. -/
def withCursor (l : Ledger) (operation : UInt64) : Ledger := { l with cursor := some operation }

/-- Refuses an operation for another queue, and one behind the last one applied. -/
def checkTurn (l : Ledger) (operation : UInt64) (queue : QueueId) : Except Failure Unit :=
  if queue = l.queue then
    match l.cursor with
    | none => .ok ()
    | some cursor =>
      if cursor ≤ operation then .ok ()
      else .error (.illegalArgument (.behindCursor operation cursor))
  else .error (.illegalArgument (.wrongQueue queue l.queue))

/-- Refuses a batch with an offset that the group cannot record, and names the first one. -/
def checkWindow (l : Ledger) (g : UInt64) (path : Path) (b : Batch) : Except Failure Unit :=
  let w := (l.group g).watermark path
  match w.firstOutside b with
  | none => .ok ()
  | some offset => .error (.ackWindowOverflow offset w.ackOffset)

/-- Raises the consume offset of a group past the last offset delivered to it. -/
def deliver (l : Ledger) (g : UInt64) (path : Path) (offset : UInt64) : Ledger :=
  l.withGroup g ((l.group g).advance path (satAdd offset 1))

/-- Records the acknowledgment of an offset by a group. -/
def commit (l : Ledger) (g : UInt64) (path : Path) (offset : UInt64) :
    Except Failure (Ledger × Watermark.Commit) :=
  match (l.group g).commit path offset with
  | .error e => .error e
  | .ok (s, c) => .ok (l.withGroup g s, c)

/-- The images of all groups, in ascending order of ids. -/
def images (l : Ledger) : List GroupImage := l.groups.toList.map fun (_, s) => s.image

/-- The groups that some images describe. A later image of the same group wins. -/
def restoreGroups (config : Config) (images : List GroupImage) :
    Except Failure (Std.ExtTreeMap UInt64 Group) :=
  images.foldlM
    (fun groups i =>
      match Group.restore i config.rebaseThreshold with
      | .error e => .error e
      | .ok s => .ok (groups.insert i.counters.group s)) ∅

/-- Refuses check points of other queues, and names the first one. -/
def checkOwn (queue : QueueId) (checkPoints : List CheckPoint) : Except Failure Unit :=
  match checkPoints.find? fun c => c.queue ≠ queue with
  | none => .ok ()
  | some c => .error (.illegalArgument (.foreignCheckPoint c.operation c.queue))

/-- Check points by the operation ids of their pops. A later one of the same id wins. -/
def byOperation (checkPoints : List CheckPoint) : Std.ExtTreeMap UInt64 CheckPoint :=
  checkPoints.foldl (fun m c => m.insert c.operation c) ∅

/-- The check points that some others do not hold as they are. -/
def outdated (existing wanted : List CheckPoint) : List CheckPoint :=
  let live := byOperation wanted
  existing.filter fun c => live.get? c.operation ≠ some c

@[simp] theorem group_empty (queue : QueueId) (config : Config) (g : UInt64) :
    (empty queue config).group g = .fresh g config.rebaseThreshold := by
  simp [group, empty]

@[simp] theorem counters_empty (queue : QueueId) (config : Config) (g : UInt64) :
    (empty queue config).counters g = .zero g := by
  simp [counters, Group.fresh]

theorem group_withGroup (l : Ledger) (g h : UInt64) (s : Group) :
    (l.withGroup g s).group h = if g = h then s else l.group h := by
  simp only [group, withGroup, Std.ExtTreeMap.get?_eq_getElem?, Std.ExtTreeMap.getElem?_insert,
    Std.LawfulEqCmp.compare_eq_iff_eq]
  split <;> simp

/-- The state of a group is the known one, or a fresh one. -/
theorem group_cases (l : Ledger) (g : UInt64) :
    l.groups.get? g = some (l.group g) ∨ l.group g = .fresh g l.config.rebaseThreshold := by
  unfold group
  cases known : l.groups.get? g with
  | none => exact Or.inr rfl
  | some s => exact Or.inl rfl

/-- After a group is put in, it is known, and others are known if they were before. -/
theorem get?_insert_cases {groups : Std.ExtTreeMap UInt64 Group} {g g' : UInt64} {s s' : Group}
    (known : (groups.insert g s).get? g' = some s') :
    (g' = g ∧ s' = s) ∨ groups.get? g' = some s' := by
  simp only [Std.ExtTreeMap.get?_eq_getElem?, Std.ExtTreeMap.getElem?_insert,
    Std.LawfulEqCmp.compare_eq_iff_eq] at known
  split at known
  next same =>
    cases known
    exact Or.inl ⟨same.symm, rfl⟩
  next => exact Or.inr known

end Ledger

end QueueLedger
