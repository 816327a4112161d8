import QueueLedger.Journal
import QueueLedger.Store.Outage
import QueueLedger.Store.Range
import QueueLedger.Tally
/-!
# The host of ledgers

A host is what the ledgers of all queues share: one store with its outages, the counters, and
the journal.

Design points:

* A call on the store is an action that returns a result or a fault and the host afterwards.
  A refused call changes nothing but the number of calls made (`attempt`).
* The store tells the journal when it pins a view or lets go of one.
* Removing a single row is not subject to outages. Ledgers remove rows in batches only.
-/

namespace QueueLedger

/-- What the ledgers of all queues share. -/
structure Host where
  /-- The store. -/
  store : Store
  /-- Which calls on the store are refused. -/
  outages : Outages
  /-- The number of batches that were applied. -/
  batches : Nat
  /-- The counters. -/
  tally : Tally
  /-- What was told so far. -/
  journal : Journal
  /-- The call in which the next notice will be given, if that opens a scope. -/
  scope : Option Scope
  deriving Inhabited

/-- A call on the host: a result or a fault, and the host afterwards. -/
abbrev Hosted := ExceptT StoreFault (StateM Host)

namespace Host

/-- A host whose store is empty and answers every call. -/
def fresh : Host := ⟨.empty, .none, 0, .zero, #[], none⟩

@[simp] theorem get_fresh (space : String) (key : Bytes) :
    fresh.store.rows.get space key = none := by
  simp [fresh, Store.empty, Rows.get]

/-- Tells the journal. -/
def tell (n : Notice) (h : Host) : Host := { h with journal := h.journal.push ⟨n, h.scope⟩ }

/-- Changes the counters. -/
def count (f : Tally → Tally) (h : Host) : Host := { h with tally := f h.tally }

/-- Opens or closes a scope. -/
def inScope (s : Option Scope) (h : Host) : Host := { h with scope := s }

/-- Makes one call on the store, which is refused or answered. -/
def attempt {α : Type} (c : Call) (answer : Host → α × Host) : Hosted α := fun h =>
  let h' := { h with outages := h.outages.count c }
  if h.outages.refusesNext c then (.error (Outages.fault c), h')
  else
    let (a, h'') := answer h'
    (.ok a, h'')

/-- Reads a row. -/
def get (space : String) (key : Bytes) : Hosted (Option Bytes) :=
  attempt .get fun h => (h.store.rows.get space key, h)

/-- Writes a row. -/
def put (space : String) (key value : Bytes) : Hosted Unit :=
  attempt .put fun h => ((), { h with store := h.store.apply [.put space key value] })

/-- Removes a row. -/
def delete (space : String) (key : Bytes) : Hosted Unit := fun h =>
  (.ok (), { h with store := h.store.apply [.delete space key] })

/-- Applies a batch of requests. -/
def batch (requests : List Request) : Hosted Unit :=
  attempt .batch fun h =>
    ((), { h with store := h.store.apply requests, batches := h.batches + 1 })

/-- Calls a visitor on the rows of a namespace in a range. -/
def iterate {σ : Type} (space : String) (range : Range) (visitor : σ → Bytes → Bytes → Visit σ)
    (init : σ) : Hosted σ :=
  attempt .iterate fun h => (h.store.iterate space range visitor init, h)

/-- Pins a view of the store and gives its version. -/
def pin : Hosted UInt64 :=
  attempt .takeSnapshot fun h =>
    let version := h.store.nextVersion
    (version, { h with store := h.store.pin }.tell (.pinned version))

/-- Lets go of a view and says whether it was held. -/
def release (version : UInt64) : Hosted Bool :=
  attempt .releaseSnapshot fun h =>
    let held := h.store.holds version
    let store := h.store.release version
    (held, { h with store := store }.tell (.unpinned version held store.retained))

/-- A refused call leaves the store as it was. -/
theorem attempt_refused {α : Type} {c : Call} {answer : Host → α × Host} {h : Host}
    (refused : h.outages.refusesNext c = true) :
    attempt c answer h = (.error (Outages.fault c), { h with outages := h.outages.count c }) := by
  simp [attempt, refused]

/-- An answered call. -/
theorem attempt_answered {α : Type} {c : Call} {answer : Host → α × Host} {h : Host}
    (answered : h.outages.refusesNext c = false) :
    attempt c answer h =
      (.ok (answer { h with outages := h.outages.count c }).1,
        (answer { h with outages := h.outages.count c }).2) := by
  simp [attempt, answered]

end Host

end QueueLedger
