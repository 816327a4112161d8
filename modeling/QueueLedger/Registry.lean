import QueueLedger.Ledger.Recovery
import QueueLedger.Ledger.Replay
/-!
# The registry

The ledgers of all queues that one host serves. A ledger is opened when its queue is first
called and stays until the queue is retired.

Design points:

* Calls on different queues share the host and nothing else (`Registry.call`).
* A queue is retired by clearing it. If clearing fails, the queue stays registered.
-/

namespace QueueLedger

/-- The ledgers that one host serves. -/
structure Registry where
  /-- The options of all queues. -/
  config : Config
  /-- The ledgers by queue. -/
  ledgers : Std.ExtTreeMap QueueId Ledger
  /-- What the ledgers share. -/
  host : Host
  deriving Inhabited

namespace Registry

/-- A registry without ledgers. -/
def start (config : Config) (host : Host) : Registry := ⟨config, ∅, host⟩

/-- The ledger of a queue, if it is registered. -/
def get? (r : Registry) (q : QueueId) : Option Ledger := r.ledgers.get? q

/-- Opens the ledger of a queue, unless it is registered already. -/
def register (r : Registry) (q : QueueId) : Registry :=
  match r.get? q with
  | some _ => r
  | none =>
    { r with
      ledgers := r.ledgers.insert q (.empty q r.config)
      host := r.host.tell (.opened q) }

/-- Makes a call on the ledger of a registered queue. -/
def callOn {α : Type} (r : Registry) (q : QueueId) (l : Ledger) (x : Act α) :
    Except Failure α × Registry :=
  let (a, s) := x ⟨l, r.host⟩
  (a, { r with ledgers := r.ledgers.insert q s.ledger, host := s.host })

/-- Makes a call on the ledger of a queue, which is opened if need be. -/
def call {α : Type} (r : Registry) (q : QueueId) (x : Act α) : Except Failure α × Registry :=
  let r := r.register q
  r.callOn q ((r.get? q).getD (.empty q r.config)) x

/-- Retires a queue, and says whether it was registered. -/
def retire (r : Registry) (q : QueueId) : Except Failure Bool × Registry :=
  match r.get? q with
  | none => (.ok false, r)
  | some l =>
    match r.callOn q l Act.clear with
    | (.error e, r) => (.error e, r)
    | (.ok (), r) =>
      (.ok true, { r with ledgers := r.ledgers.erase q, host := r.host.tell (.retired q) })

/-- Makes a call on the host. -/
def onHost {α : Type} (r : Registry) (x : Hosted α) : Except StoreFault α × Registry :=
  let (a, h) := x r.host
  (a, { r with host := h })

/-- The registered queues, in ascending order. -/
def queues (r : Registry) : List QueueId := r.ledgers.keys

/-- The number of registered queues. -/
def size (r : Registry) : Nat := r.ledgers.size

end Registry

end QueueLedger
