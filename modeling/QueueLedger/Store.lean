import Std.Data.ExtTreeMap.Lemmas
import QueueLedger.Bytes
import QueueLedger.Failure
/-!
# The store

Rows are byte strings under an address: a namespace and a key. The store holds the live rows
and, beside them, whole views pinned at earlier moments.

Design points:

* All namespaces live in one ordered map, ordered by namespace and then by key. So a
  namespace without rows leaves no trace, and two stores with the same rows are equal.
* A batch is the fold of its requests (`Rows.apply`), in order: a later request on the same
  address wins.
* View versions are handed out in ascending order and never again.
-/

namespace QueueLedger

/-- Where a row is stored. -/
structure Address where
  /-- The namespace. -/
  space : String
  /-- The key within the namespace. -/
  key : Bytes
  deriving Repr, DecidableEq, Inhabited

namespace Address

instance : Ord Address := ⟨compareLex (compareOn space) (compareOn key)⟩

instance : Std.TransOrd Address :=
  inferInstanceAs (Std.TransCmp (compareLex (compareOn space) (compareOn key)))

instance : Std.LawfulEqOrd Address where
  eq_of_compare := by
    intro a b h
    obtain ⟨spaces, keys⟩ := compareLex_eq_eq.1 h
    have hs : a.space = b.space := Std.LawfulEqCmp.eq_of_compare spaces
    have hk : a.key = b.key := Std.LawfulEqCmp.eq_of_compare keys
    cases a; cases b; simp_all

end Address

/-- One change of a row. -/
inductive Request
  /-- Writes a row. -/
  | put (space : String) (key value : Bytes)
  /-- Removes a row, if there is one. -/
  | delete (space : String) (key : Bytes)
  deriving Repr, DecidableEq, Inhabited

namespace Request

/-- The namespace of the row. -/
def space : Request → String
  | put space _ _ => space
  | delete space _ => space

/-- The key of the row. -/
def key : Request → Bytes
  | put _ key _ => key
  | delete _ key => key

/-- The address of the row. -/
def address (r : Request) : Address := ⟨r.space, r.key⟩

/-- The value that the row has after the request. -/
def value? : Request → Option Bytes
  | put _ _ value => some value
  | delete _ _ => none

end Request

/-- Rows by address. -/
abbrev Rows := Std.ExtTreeMap Address Bytes

namespace Rows

/-- The value of a row. -/
def get (r : Rows) (space : String) (key : Bytes) : Option Bytes := r.get? ⟨space, key⟩

/-- The rows after one request. -/
def request (r : Rows) : Request → Rows
  | .put space key value => r.insert ⟨space, key⟩ value
  | .delete space key => r.erase ⟨space, key⟩

/-- The rows after a batch of requests, in order. -/
def apply (r : Rows) (requests : List Request) : Rows := requests.foldl request r

/-- The rows of a namespace, in ascending order of keys. -/
def inSpace (r : Rows) (space : String) : List (Bytes × Bytes) :=
  r.toList.filterMap fun (a, v) => if a.space = space then some (a.key, v) else none

@[simp] theorem apply_nil (r : Rows) : r.apply [] = r := rfl

@[simp] theorem apply_cons (r : Rows) (q : Request) (qs : List Request) :
    r.apply (q :: qs) = (r.request q).apply qs := rfl

theorem apply_append (r : Rows) (qs qs' : List Request) :
    r.apply (qs ++ qs') = (r.apply qs).apply qs' := by
  simp [apply]

/-- What a request does to each row. -/
theorem get_request (r : Rows) (q : Request) (space : String) (key : Bytes) :
    (r.request q).get space key =
      if q.address = ⟨space, key⟩ then q.value? else r.get space key := by
  cases q with
  | put s k v =>
    simp [request, get, Request.address, Request.space, Request.key, Request.value?,
      Std.ExtTreeMap.getElem?_insert]
  | delete s k =>
    simp [request, get, Request.address, Request.space, Request.key, Request.value?,
      Std.ExtTreeMap.getElem?_erase]

/-- The listed rows of a namespace are its rows. -/
theorem mem_inSpace {r : Rows} {space : String} {k v : Bytes} :
    (k, v) ∈ r.inSpace space ↔ r.get space k = some v := by
  simp only [inSpace, List.mem_filterMap, get, Prod.exists]
  constructor
  · rintro ⟨a, v', h, hv⟩
    split at hv
    next hs =>
      cases hv
      subst hs
      exact Std.ExtTreeMap.mem_toList_iff_getElem?_eq_some.1 h
    next => cases hv
  · intro h
    exact ⟨⟨space, k⟩, v, Std.ExtTreeMap.mem_toList_iff_getElem?_eq_some.2 h, by simp⟩

/-- Rows are equal when they agree at every address. -/
theorem ext_get {r s : Rows} (h : ∀ space key, r.get space key = s.get space key) : r = s :=
  Std.ExtTreeMap.ext_getElem? fun a => h a.space a.key

end Rows

/-- A store: its live rows and the views pinned at earlier moments. -/
structure Store where
  /-- The live rows. -/
  rows : Rows
  /-- The pinned views by version. -/
  views : Std.ExtTreeMap UInt64 Rows
  /-- The version of the next view. -/
  nextVersion : UInt64

namespace Store

/-- A store without rows and views. -/
def empty : Store := ⟨∅, ∅, 0⟩

instance : Inhabited Store := ⟨empty⟩

/-- Applies a batch of requests. -/
def apply (s : Store) (requests : List Request) : Store :=
  { s with rows := s.rows.apply requests }

/-- Pins the live rows under the next version. -/
def pin (s : Store) : Store :=
  { s with views := s.views.insert s.nextVersion s.rows, nextVersion := s.nextVersion + 1 }

/-- Lets go of a view. -/
def release (s : Store) (version : UInt64) : Store := { s with views := s.views.erase version }

/-- Whether a view is held under a version. -/
def holds (s : Store) (version : UInt64) : Bool := s.views.contains version

/-- The number of held views. -/
def retained (s : Store) : Nat := s.views.size

/-- Reads a row as it was when a view was pinned. -/
def viewGet (s : Store) (version : UInt64) (space : String) (key : Bytes) :
    Except StoreFault (Option Bytes) :=
  match s.views.get? version with
  | some rows => .ok (rows.get space key)
  | none => .error (.unknownSnapshot version)

end Store

end QueueLedger
