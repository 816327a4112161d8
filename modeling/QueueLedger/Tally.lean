import QueueLedger.Operation
/-!
# Counters

What the ledgers of one store have done so far, for monitoring. Counters are kept by kind of
operation and by kind of administrative call.
-/

namespace QueueLedger

/-- The counters of one kind of operation. -/
structure ReplayTally where
  /-- Replays. -/
  total : Nat
  /-- Replays that failed. -/
  failed : Nat
  /-- Replays whose duration was taken. -/
  timed : Nat
  deriving Repr, DecidableEq, Inhabited

/-- The administrative calls that are counted. -/
inductive AdminKind
  /-- Taking a snapshot. -/
  | snapshot
  /-- Loading a snapshot. -/
  | load
  /-- Clearing a queue. -/
  | clear
  deriving Repr, DecidableEq, Inhabited

/-- The counters of a store. -/
structure Tally where
  /-- Pops. -/
  pops : ReplayTally
  /-- Acknowledgments. -/
  acks : ReplayTally
  /-- Renewals. -/
  renewals : ReplayTally
  /-- Snapshots taken. -/
  snapshots : Nat
  /-- Snapshots loaded. -/
  loads : Nat
  /-- Queues cleared. -/
  clears : Nat
  /-- Bitmaps re-anchored. -/
  rebases : Nat
  deriving Repr, DecidableEq, Inhabited

namespace Tally

/-- Counters that have counted nothing. -/
def zero : Tally := ⟨⟨0, 0, 0⟩, ⟨0, 0, 0⟩, ⟨0, 0, 0⟩, 0, 0, 0, 0⟩

/-- The counters of a kind of operation. -/
def ofKind (t : Tally) : OperationKind → ReplayTally
  | .pop => t.pops
  | .ack => t.acks
  | .renewal => t.renewals

/-- Counts a replay, which took its time whether it failed or not. -/
def replayed (failed : Bool) (r : ReplayTally) : ReplayTally :=
  ⟨r.total + 1, if failed then r.failed + 1 else r.failed, r.timed + 1⟩

/-- Counts a replay of a kind. -/
def countReplay (t : Tally) (kind : OperationKind) (failed : Bool) : Tally :=
  match kind with
  | .pop => { t with pops := replayed failed t.pops }
  | .ack => { t with acks := replayed failed t.acks }
  | .renewal => { t with renewals := replayed failed t.renewals }

/-- The counter of a kind of administrative call. -/
def ofAdmin (t : Tally) : AdminKind → Nat
  | .snapshot => t.snapshots
  | .load => t.loads
  | .clear => t.clears

/-- Counts an administrative call. -/
def countAdmin (t : Tally) (kind : AdminKind) : Tally :=
  match kind with
  | .snapshot => { t with snapshots := t.snapshots + 1 }
  | .load => { t with loads := t.loads + 1 }
  | .clear => { t with clears := t.clears + 1 }

/-- Counts re-anchored bitmaps. -/
def countRebases (t : Tally) (n : Nat) : Tally := { t with rebases := t.rebases + n }

@[simp] theorem ofKind_countReplay (t : Tally) (kind other : OperationKind) (failed : Bool) :
    (t.countReplay kind failed).ofKind other =
      if kind = other then replayed failed (t.ofKind other) else t.ofKind other := by
  cases kind <;> cases other <;> rfl

@[simp] theorem ofKind_countAdmin (t : Tally) (kind : AdminKind) (other : OperationKind) :
    (t.countAdmin kind).ofKind other = t.ofKind other := by
  cases kind <;> cases other <;> rfl

@[simp] theorem ofKind_countRebases (t : Tally) (n : Nat) (kind : OperationKind) :
    (t.countRebases n).ofKind kind = t.ofKind kind := by
  cases kind <;> rfl

@[simp] theorem ofAdmin_countReplay (t : Tally) (kind : OperationKind) (failed : Bool)
    (other : AdminKind) : (t.countReplay kind failed).ofAdmin other = t.ofAdmin other := by
  cases kind <;> cases other <;> rfl

@[simp] theorem ofAdmin_countAdmin (t : Tally) (kind other : AdminKind) :
    (t.countAdmin kind).ofAdmin other = t.ofAdmin other + if kind = other then 1 else 0 := by
  cases kind <;> cases other <;> rfl

@[simp] theorem ofAdmin_countRebases (t : Tally) (n : Nat) (kind : AdminKind) :
    (t.countRebases n).ofAdmin kind = t.ofAdmin kind := by
  cases kind <;> rfl

@[simp] theorem rebases_countReplay (t : Tally) (kind : OperationKind) (failed : Bool) :
    (t.countReplay kind failed).rebases = t.rebases := by
  cases kind <;> rfl

@[simp] theorem rebases_countAdmin (t : Tally) (kind : AdminKind) :
    (t.countAdmin kind).rebases = t.rebases := by
  cases kind <;> rfl

@[simp] theorem rebases_countRebases (t : Tally) (n : Nat) :
    (t.countRebases n).rebases = t.rebases + n := rfl

end Tally

end QueueLedger
