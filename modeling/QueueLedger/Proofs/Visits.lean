import Mathlib.Data.List.Induction
import QueueLedger.Proofs.Decision
import QueueLedger.Proofs.RangeVisit
/-!
# What a visitor meets

A visit of a range looks for it in the ordered rows of a namespace and never tests a key by itself.
Whatever was written, and whatever the bounds are, the visitor is called on the rows whose keys the
range means, each with the value that was written last, in ascending order of keys, up to and with
the row at which it stops (`Host.iterate_meets`).

## Proof shape

Rows after any writes are told by the last request on each address (`Rows.get_apply_latest`), and a
visit of any rows meets those that the range means (`Rows.mem_select`). What is left is the visitor.
To see its calls it is watched (`watched`): the watched visitor says what the visitor says and keeps
the rows that it was called on.
-/

namespace QueueLedger

/-! ### The rows that writes leave -/

namespace Request

/-- The value that the last request on an address leaves there: none if that removes the row, or if
there is no such request. -/
def latest (requests : List Request) (a : Address) : Option Bytes :=
  (requests.reverse.find? fun request => request.address = a).bind value?

@[simp] theorem latest_nil (a : Address) : latest [] a = none := rfl

/-- A later request on the address decides alone. -/
theorem latest_append_singleton (requests : List Request) (request : Request) (a : Address) :
    latest (requests ++ [request]) a =
      if request.address = a then request.value? else latest requests a := by
  unfold latest
  rw [List.reverse_append, List.reverse_singleton, List.singleton_append, List.find?_cons]
  by_cases here : request.address = a
  · simp [here]
  · simp [here]

end Request

namespace Rows

/-- Rows that were empty hold what was written last. -/
theorem get_apply_latest (requests : List Request) (space : String) (key : Bytes) :
    (apply ∅ requests).get space key = Request.latest requests ⟨space, key⟩ := by
  induction requests using List.reverseRecOn with
  | nil => simp [get]
  | append_singleton requests request ih =>
    rw [apply_append, Request.latest_append_singleton, ← ih]
    exact get_request (apply ∅ requests) request space key

end Rows

/-- A call that writes to a store. -/
inductive Write
  /-- Writes one row. -/
  | put (space : String) (key value : Bytes)
  /-- Removes one row. -/
  | delete (space : String) (key : Bytes)
  /-- Applies requests in order, all at once. -/
  | batch (requests : List Request)

namespace Write

/-- The requests that a write stands for. -/
def requests : Write → List Request
  | put space key value => [.put space key value]
  | delete space key => [.delete space key]
  | batch requests => requests

/-- Makes the call. -/
def run : Write → Hosted Unit
  | put space key value => Host.put space key value
  | delete space key => Host.delete space key
  | batch requests => Host.batch requests

end Write

namespace Host

/-- The host after some writes. -/
def written (h : Host) (writes : List Write) : Host := writes.foldl (fun h w => (w.run h).2) h

variable {h : Host}

theorem Answers.refusesNext (answers : h.Answers) (c : Call) : h.outages.refusesNext c = false :=
  answers c _

/-- One write applies its requests. -/
theorem Answers.run (answers : h.Answers) (w : Write) :
    (w.run h).2.Answers ∧ (w.run h).2.store = h.store.apply w.requests := by
  cases w with
  | put space key value =>
    rw [Write.run, Host.put, attempt_answered (answers.refusesNext .put)]
    exact ⟨answers, rfl⟩
  | delete space key => exact ⟨answers, rfl⟩
  | batch requests =>
    rw [Write.run, Host.batch, attempt_answered (answers.refusesNext .batch)]
    exact ⟨answers, rfl⟩

/-- Any writes, one after the other, change the rows as their requests say. -/
theorem Answers.written (answers : h.Answers) (writes : List Write) :
    (h.written writes).Answers ∧
      (h.written writes).store.rows = h.store.rows.apply (writes.flatMap Write.requests) := by
  induction writes generalizing h with
  | nil => exact ⟨answers, rfl⟩
  | cons w writes ih =>
    obtain ⟨next, store⟩ := answers.run w
    obtain ⟨last, rest⟩ := ih next
    refine ⟨last, ?_⟩
    rw [store] at rest
    rw [List.flatMap_cons, Rows.apply_append]
    exact rest

end Host

/-! ### The calls of a visitor -/

section Visitor

variable {σ : Type} {visitor : σ → Bytes → Bytes → Visit σ}

/-- What the visitor has become, whether it goes on or stops. -/
def Visit.state : Visit σ → σ
  | more s => s
  | enough s => s

/-- What the visitor has become after calls on some rows. -/
def stateAfter (visitor : σ → Bytes → Bytes → Visit σ) (s : σ) (calls : List (Bytes × Bytes)) : σ :=
  calls.foldl (fun s row => (visitor s row.1 row.2).state) s

/-- The visitor says that it has enough when it is called on a row. -/
def Stops (visitor : σ → Bytes → Bytes → Visit σ) (s : σ) (row : Bytes × Bytes) : Prop :=
  ∃ s', visitor s row.1 row.2 = .enough s'

/-- The visitor, watched: it says the same, and the rows that it is called on are kept. -/
def watched (visitor : σ → Bytes → Bytes → Visit σ) (s : σ × List (Bytes × Bytes))
    (key value : Bytes) : Visit (σ × List (Bytes × Bytes)) :=
  match visitor s.1 key value with
  | .more s' => .more (s', s.2 ++ [(key, value)])
  | .enough s' => .enough (s', s.2 ++ [(key, value)])

/-- A watched walk shows the calls of the walk. -/
theorem walk_watched (s : σ) (calls rows : List (Bytes × Bytes)) :
    walk (watched visitor) (s, calls) rows =
      (walk visitor s rows, calls ++ visited visitor s rows) := by
  induction rows generalizing s calls with
  | nil => simp [walk, visited]
  | cons row rows ih =>
    obtain ⟨key, value⟩ := row
    cases said : visitor s key value with
    | more s' => simp [walk, visited, watched, said, ih]
    | enough s' => simp [walk, visited, watched, said]

/-- The walk leads to what its calls make of the visitor. -/
theorem walk_eq_stateAfter (s : σ) (rows : List (Bytes × Bytes)) :
    walk visitor s rows = stateAfter visitor s (visited visitor s rows) := by
  induction rows generalizing s with
  | nil => simp [walk, visited, stateAfter]
  | cons row rows ih =>
    obtain ⟨key, value⟩ := row
    cases said : visitor s key value with
    | more s' => simp [walk, visited, stateAfter, said, Visit.state, ih]
    | enough s' => simp [walk, visited, stateAfter, said, Visit.state]

theorem visited_isPrefix (s : σ) (rows : List (Bytes × Bytes)) :
    visited visitor s rows <+: rows := by
  induction rows generalizing s with
  | nil => simp [visited]
  | cons row rows ih =>
    obtain ⟨key, value⟩ := row
    cases said : visitor s key value with
    | more s' => simp [visited, said, ih]
    | enough s' => simp [visited, said]

/-- The visitor stops at none of the rows that it is called on in turn. -/
def GoesOn (visitor : σ → Bytes → Bytes → Visit σ) (s : σ) (rows : List (Bytes × Bytes)) : Prop :=
  ∀ earlier row later, rows = earlier ++ row :: later →
    ¬ Stops visitor (stateAfter visitor s earlier) row

theorem goesOn_cons {s : σ} {row : Bytes × Bytes} {rows : List (Bytes × Bytes)} :
    GoesOn visitor s (row :: rows) ↔
      ¬ Stops visitor s row ∧ GoesOn visitor (visitor s row.1 row.2).state rows := by
  constructor
  · intro goes
    refine ⟨goes [] row rows rfl, ?_⟩
    intro earlier row' later split
    exact goes (row :: earlier) row' later (by simp [split])
  · intro goes earlier row' later split
    obtain ⟨first, rest⟩ := goes
    cases earlier with
    | nil =>
      cases split
      exact first
    | cons row'' earlier =>
      cases split
      exact rest earlier row' later rfl

/-- A row is called on exactly if the visitor has stopped at none before it. -/
theorem prefix_visited_iff (s : σ) (earlier : List (Bytes × Bytes)) (row : Bytes × Bytes)
    (later : List (Bytes × Bytes)) :
    earlier ++ [row] <+: visited visitor s (earlier ++ row :: later) ↔
      GoesOn visitor s earlier := by
  induction earlier generalizing s with
  | nil =>
    obtain ⟨key, value⟩ := row
    have called : [(key, value)] <+: visited visitor s ((key, value) :: later) := by
      cases said : visitor s key value <;> simp [visited, said]
    exact iff_of_true called (by simp [GoesOn])
  | cons row' earlier ih =>
    obtain ⟨key, value⟩ := row'
    rw [goesOn_cons]
    cases said : visitor s key value with
    | more s' => simp [visited, said, Stops, Visit.state, ih]
    | enough s' => simp [visited, said, Stops]

end Visitor

/-! ### The main statement -/

/-- **A visit meets the rows of its range.** Make any writes on a host that answers and has no rows,
and visit any range of any namespace with any visitor. There is one list of rows, in strictly
ascending order of keys, which holds exactly the keys of the namespace that have a value and that
the range means, each with the value that was written last. The visitor is called on its rows in
this order, from the first one on, and on each of them exactly if it has stopped at none before. It
ends as these calls make it. -/
theorem Host.iterate_meets {σ : Type} {host : Host} (answers : host.Answers)
    (empty : host.store.rows = ∅) (writes : List Write) (space : String) (range : Range)
    (visitor : σ → Bytes → Bytes → Visit σ) (init : σ) :
    ∃ rows calls : List (Bytes × Bytes),
      (∀ key value, (key, value) ∈ rows ↔
        Request.latest (writes.flatMap Write.requests) ⟨space, key⟩ = some value ∧
          range.holds key = true) ∧
      (rows.Pairwise fun row row' => row.1.before row'.1 = true) ∧
      calls <+: rows ∧
      (∀ earlier row later, rows = earlier ++ row :: later →
        (earlier ++ [row] <+: calls ↔ GoesOn visitor init earlier)) ∧
      (iterate space range (watched visitor) (init, []) (host.written writes)).1 =
        .ok (stateAfter visitor init calls, calls) ∧
      (iterate space range visitor init (host.written writes)).1 =
        .ok (stateAfter visitor init calls) := by
  obtain ⟨answers', written⟩ := answers.written writes
  rw [empty] at written
  have visits {τ : Type} (v : τ → Bytes → Bytes → Visit τ) (t : τ) :
      (iterate space range v t (host.written writes)).1 =
        .ok (walk v t (range.select ((host.written writes).store.rows.inSpace space))) := by
    rw [iterate, attempt_answered (answers'.refusesNext .iterate)]
    rfl
  let rows := range.select ((host.written writes).store.rows.inSpace space)
  refine ⟨rows, visited visitor init rows, ?_, ?_, visited_isPrefix init rows, ?_, ?_, ?_⟩
  · intro key value
    rw [Rows.mem_select, written, Rows.get_apply_latest]
  · exact Rows.ascending_select _ range space
  · intro earlier row later split
    rw [split]
    exact prefix_visited_iff init earlier row later
  · rw [visits, walk_watched, walk_eq_stateAfter, List.nil_append]
  · rw [visits, walk_eq_stateAfter]

/-- A start before the leading bytes, rows that are written again and removed, one under another
namespace and one past the leading bytes, and a visitor that stops at its second row. -/
theorem Host.iterate_meets_stem :
    let writes : List Write :=
      [.put "t" [1] [10], .put "t" [1, 2] [11], .put "t" [1, 2, 9] [12], .put "u" [1, 2, 0] [13],
        .batch [.put "t" [1, 2, 3] [14], .delete "t" [1, 2, 9], .put "t" [1, 2] [15],
          .put "t" [1, 2, 7] [16]], .put "t" [1, 3] [17]]
    let range : Range := ⟨some [1, 2], some [1], some [2]⟩
    ∃ rows : List (Bytes × Bytes), ([1, 2, 7], [16]) ∈ rows ∧ ([1, 3], [17]) ∉ rows ∧
      [([1, 2], [15]), ([1, 2, 3], [14])] <+: rows ∧
      (iterate "t" range (watched (collectUpTo 2)) (#[], [])
          (Host.fresh.written writes)).1.toOption =
        some (#[([1, 2], [15]), ([1, 2, 3], [14])], [([1, 2], [15]), ([1, 2, 3], [14])]) := by
  intro writes range
  have shown : (iterate "t" range (watched (collectUpTo 2)) (#[], [])
      (Host.fresh.written writes)).1.toOption =
        some (#[([1, 2], [15]), ([1, 2, 3], [14])], [([1, 2], [15]), ([1, 2, 3], [14])]) := by
    decide +kernel
  have answers : fresh.Answers := fun _ _ => rfl
  obtain ⟨rows, calls, mem, -, front, -, meets, -⟩ :=
    iterate_meets answers rfl writes "t" range (collectUpTo 2) #[]
  have calls_eq : calls = [([1, 2], [15]), ([1, 2, 3], [14])] := by
    rw [meets] at shown
    exact congrArg Prod.snd (Option.some.inj shown)
  rw [calls_eq] at front
  refine ⟨rows, (mem _ _).2 (by decide +kernel), fun past => ?_, front, shown⟩
  have outside := (mem _ _).1 past
  revert outside
  decide +kernel

end QueueLedger
