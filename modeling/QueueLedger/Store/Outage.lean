import QueueLedger.Failure
/-!
# Outages

A store may be out of order for a while. A schedule says which calls it refuses: for each
kind of call, and for each number that counts the calls of that kind.

Design points:

* A schedule is any predicate on kinds and numbers, so every pattern of failures is one.
* A refused call is counted like an answered one.
-/

namespace QueueLedger

/-- The kinds of calls that can be refused. -/
inductive Call
  /-- Reading a row. -/
  | get
  /-- Writing a row. -/
  | put
  /-- Applying a batch of requests. -/
  | batch
  /-- Visiting rows. -/
  | iterate
  /-- Pinning a view. -/
  | takeSnapshot
  /-- Letting go of a view. -/
  | releaseSnapshot
  deriving Repr, DecidableEq, Inhabited

namespace Call

/-- The name of a kind. -/
def name : Call → String
  | get => "get"
  | put => "put"
  | batch => "batch"
  | iterate => "iterate"
  | takeSnapshot => "take_snapshot"
  | releaseSnapshot => "release_snapshot"

/-- Every kind. -/
def all : List Call := [get, put, batch, iterate, takeSnapshot, releaseSnapshot]

/-- The kind with a given name. -/
def ofName? (s : String) : Option Call := all.find? fun c => c.name == s

end Call

/-- How often each kind of call was made. -/
structure CallCounts where
  /-- Reads. -/
  gets : Nat
  /-- Writes. -/
  puts : Nat
  /-- Batches. -/
  batches : Nat
  /-- Visits. -/
  iterates : Nat
  /-- Views asked for. -/
  pins : Nat
  /-- Views given up. -/
  releases : Nat
  deriving Repr, DecidableEq, Inhabited

namespace CallCounts

/-- No call was made. -/
def zero : CallCounts := ⟨0, 0, 0, 0, 0, 0⟩

/-- The number of calls of a kind. -/
def of (n : CallCounts) : Call → Nat
  | .get => n.gets
  | .put => n.puts
  | .batch => n.batches
  | .iterate => n.iterates
  | .takeSnapshot => n.pins
  | .releaseSnapshot => n.releases

/-- One more call of a kind. -/
def add (n : CallCounts) : Call → CallCounts
  | .get => { n with gets := n.gets + 1 }
  | .put => { n with puts := n.puts + 1 }
  | .batch => { n with batches := n.batches + 1 }
  | .iterate => { n with iterates := n.iterates + 1 }
  | .takeSnapshot => { n with pins := n.pins + 1 }
  | .releaseSnapshot => { n with releases := n.releases + 1 }

theorem of_add (n : CallCounts) (c d : Call) :
    (n.add c).of d = if c = d then n.of d + 1 else n.of d := by
  cases c <;> cases d <;> simp [add, of]

end CallCounts

/-- A schedule of refusals and the calls made so far. -/
structure Outages where
  /-- Whether the store refuses the call of a kind that has a given number, from zero. -/
  refuses : Call → Nat → Bool
  /-- The calls made so far. -/
  made : CallCounts

namespace Outages

/-- A store that answers every call. -/
def none : Outages := ⟨fun _ _ => false, .zero⟩

instance : Inhabited Outages := ⟨none⟩

/-- Replaces the part of the schedule that is about one kind of call. -/
def replan (o : Outages) (c : Call) (plan : Nat → Bool) : Outages :=
  { o with refuses := fun d => if d = c then plan else o.refuses d }

/-- From now on, `n` more calls of a kind are answered, and all later ones are refused. -/
def failAfter (o : Outages) (c : Call) (n : Nat) : Outages :=
  o.replan c fun k => decide (o.made.of c + n ≤ k)

/-- From now on, all calls of a kind are answered. -/
def mend (o : Outages) (c : Call) : Outages := o.replan c fun _ => false

/-- Whether the next call of a kind is refused. -/
def refusesNext (o : Outages) (c : Call) : Bool := o.refuses c (o.made.of c)

/-- The calls made, with one more. -/
def count (o : Outages) (c : Call) : Outages := { o with made := o.made.add c }

/-- The failure that a refused call shows. -/
def fault (c : Call) : StoreFault := .storage ("injected " ++ c.name ++ " failure")

end Outages

end QueueLedger
