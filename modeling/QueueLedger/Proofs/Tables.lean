import Mathlib.Data.Set.Insert
import QueueLedger.Ledger.Recovery
/-!
# Tables as the image of deliveries

The rows of a queue are the image of its deliveries in flight, its live check points: each of them
has a check point row, a timer row, and a lock row for each offset if it is ordered
(`CheckPoint.rows`). `Mirrors` says that a store holds the image of a set of check points and
nothing else of the queue.

## Proof shape

A row tells whose it is: two check points of one queue that share a row are the same
(`Mirrors.apart`). So taking some check points out of a mirrored set removes none of the rows of
those that stay, and putting others in is fine as long as no two of the new set share an address
(`Mirrors.replace`). Every batch that a ledger sends is such a replacement; a renewal writes less,
but with the same effect (`Mirrors.apply_moves`).
-/

namespace QueueLedger

/-! ### Keys -/

namespace TimerKey

theorem encode_inj {k k' : TimerKey} : k.encode = k'.encode ↔ k = k' := by
  refine ⟨fun h => ?_, fun h => by rw [h]⟩
  have same : decode k.encode = decode k'.encode := by rw [h]
  rw [decode_encode, decode_encode] at same
  cases same
  rfl

end TimerKey

namespace OrderLock

theorem value_inj {n n' : UInt64} : value n = value n' ↔ n = n' := by
  refine ⟨fun h => ?_, fun h => by rw [h]⟩
  have same : owner (value n) = owner (value n') := by rw [h]
  rw [owner_value, owner_value] at same
  cases same
  rfl

-- The layout is that of a timer key, with the group in the place of the time.
theorem key_eq_encode (group : UInt64) (queue : QueueId) (offset : UInt64) :
    key group queue offset = TimerKey.encode ⟨group, queue, offset⟩ := rfl

theorem key_inj {g g' : UInt64} {q q' : QueueId} {o o' : UInt64} :
    key g q o = key g' q' o' ↔ g = g' ∧ q = q' ∧ o = o' := by
  rw [key_eq_encode, key_eq_encode, TimerKey.encode_inj, TimerKey.mk.injEq]

end OrderLock

namespace CheckPoint

theorem encode_inj {c c' : CheckPoint} : c.encode = c'.encode ↔ c = c' := by
  refine ⟨fun h => ?_, fun h => by rw [h]⟩
  have same : decode c.encode = decode c'.encode := by rw [h]
  rw [decode_encode, decode_encode] at same
  cases same
  rfl

theorem keyOf_inj {q q' : QueueId} {n n' : UInt64} : keyOf q n = keyOf q' n' ↔ q = q' ∧ n = n' := by
  constructor
  · intro h
    -- A timer key is a time in front of such a key.
    have timers : TimerKey.encode ⟨0, q, n⟩ = TimerKey.encode ⟨0, q', n'⟩ := by
      unfold keyOf at h
      unfold TimerKey.encode
      rw [h]
    rw [TimerKey.encode_inj, TimerKey.mk.injEq] at timers
    exact timers.2
  · intro h
    obtain ⟨rfl, rfl⟩ := h
    rfl

theorem scope_isPrefixOf_keyOf (q : QueueId) (n : UInt64) :
    (scope q).isPrefixOf (keyOf q n) = true := by
  rw [List.isPrefixOf_iff_prefix]
  exact ⟨BigEndian.put64 n, by simp [scope, keyOf]⟩

/-- The leading bytes of the keys of two queues are different. -/
theorem eq_of_scope_isPrefixOf {q q' : QueueId} {key : Bytes}
    (h : (scope q).isPrefixOf key = true) (h' : (scope q').isPrefixOf key = true) : q = q' := by
  rw [List.isPrefixOf_iff_prefix] at h h'
  have same : scope q = scope q' :=
    (List.prefix_of_prefix_length_le h h' (by simp [scope])).eq_of_length (by simp [scope])
  have key : keyOf q 0 = keyOf q' 0 := by
    rw [show keyOf q 0 = scope q ++ BigEndian.put64 0 by simp [keyOf, scope], same]
    simp [keyOf, scope]
  exact (keyOf_inj.1 key).1

theorem mem_lockKeys {c : CheckPoint} {key : Bytes} :
    key ∈ c.lockKeys ↔
      c.kind = .order ∧ ∃ o ∈ c.batch.offsets, key = OrderLock.key c.group c.queue o := by
  unfold lockKeys firstLockKeys lockCount
  rw [Nat.min_self]
  by_cases ordered : c.kind = .order
  · rw [if_pos ordered, List.mem_map]
    simp only [ordered, true_and, Batch.offsets]
    constructor
    · intro h
      obtain ⟨o, ho, rfl⟩ := h
      exact ⟨o, ho, rfl⟩
    · intro h
      obtain ⟨o, ho, rfl⟩ := h
      exact ⟨o, ho, rfl⟩
  · simp [ordered]

/-! ### The rows of a delivery -/

/-- The rows of a delivery with their values. -/
def rows (c : CheckPoint) (tables : Config) : List (Address × Bytes) :=
  (⟨tables.checkPoints, c.key⟩, c.encode) ::
    (⟨tables.timers, c.timerKey.encode⟩, c.receipt.encode) ::
    c.lockKeys.map fun key => (⟨tables.locks, key⟩, OrderLock.value c.operation)

theorem puts_eq (c : CheckPoint) (tables : Config) :
    c.puts tables = (c.rows tables).map fun row => .put row.1.space row.1.key row.2 := by
  simp [puts, rows, Function.comp_def]

theorem deletes_eq (c : CheckPoint) (tables : Config) :
    c.deletes tables = (c.rows tables).map fun row => .delete row.1.space row.1.key := by
  simp [deletes, rows, Function.comp_def]

variable {tables : Config} {q : QueueId} {a : Address} {v v' : Bytes} {c c' : CheckPoint}

theorem mem_rows :
    (a, v) ∈ c.rows tables ↔
      (a = ⟨tables.checkPoints, c.key⟩ ∧ v = c.encode) ∨
      (a = ⟨tables.timers, c.timerKey.encode⟩ ∧ v = c.receipt.encode) ∨
      (c.kind = .order ∧ ∃ o ∈ c.batch.offsets,
        a = ⟨tables.locks, OrderLock.key c.group c.queue o⟩ ∧ v = OrderLock.value c.operation) := by
  simp only [rows, List.mem_cons, Prod.mk.injEq, List.mem_map, mem_lockKeys]
  constructor
  · intro h
    rcases h with h | h | ⟨key, ⟨ordered, o, ho, rfl⟩, rfl, rfl⟩
    · exact Or.inl h
    · exact Or.inr (Or.inl h)
    · exact Or.inr (Or.inr ⟨ordered, o, ho, rfl, rfl⟩)
  · intro h
    rcases h with h | h | ⟨ordered, o, ho, rfl, rfl⟩
    · exact Or.inl h
    · exact Or.inr (Or.inl h)
    · exact Or.inr (Or.inr ⟨_, ⟨ordered, o, ho, rfl⟩, rfl, rfl⟩)

/-- Rows at one address are in one table, so they are of one kind. -/
theorem same_table (distinct : tables.distinct) (h : (a, v) ∈ c.rows tables)
    (h' : (a, v') ∈ c'.rows tables) :
    (c.key = c'.key ∧ v = c.encode ∧ v' = c'.encode) ∨
      (c.timerKey = c'.timerKey ∧ v = c.receipt.encode ∧ v' = c'.receipt.encode) ∨
      (c.kind = .order ∧ c'.kind = .order ∧ c.group = c'.group ∧ c.queue = c'.queue ∧
        (∃ o, o ∈ c.batch.offsets ∧ o ∈ c'.batch.offsets) ∧
        v = OrderLock.value c.operation ∧ v' = OrderLock.value c'.operation) := by
  obtain ⟨ct, cl, tl⟩ := distinct
  rcases mem_rows.1 h with ⟨rfl, hv⟩ | ⟨rfl, hv⟩ | ⟨ordered, o, ho, rfl, hv⟩
  · rcases mem_rows.1 h' with ⟨ha, hv'⟩ | ⟨ha, -⟩ | ⟨-, o, -, ha, -⟩
    · exact Or.inl ⟨(Address.mk.inj ha).2, hv, hv'⟩
    · exact absurd (Address.mk.inj ha).1 ct
    · exact absurd (Address.mk.inj ha).1 cl
  · rcases mem_rows.1 h' with ⟨ha, -⟩ | ⟨ha, hv'⟩ | ⟨-, o, -, ha, -⟩
    · exact absurd (Address.mk.inj ha).1.symm ct
    · exact Or.inr (Or.inl ⟨TimerKey.encode_inj.1 (Address.mk.inj ha).2, hv, hv'⟩)
    · exact absurd (Address.mk.inj ha).1 tl
  · rcases mem_rows.1 h' with ⟨ha, -⟩ | ⟨ha, -⟩ | ⟨ordered', o', ho', ha, hv'⟩
    · exact absurd (Address.mk.inj ha).1.symm cl
    · exact absurd (Address.mk.inj ha).1.symm tl
    · obtain ⟨group, queue, rfl⟩ := OrderLock.key_inj.1 (Address.mk.inj ha).2
      exact Or.inr (Or.inr ⟨ordered, ordered', group, queue, ⟨o, ho, ho'⟩, hv, hv'⟩)

/-- A delivery has one row at an address. -/
theorem rows_functional (distinct : tables.distinct) (h : (a, v) ∈ c.rows tables)
    (h' : (a, v') ∈ c.rows tables) : v = v' := by
  rcases same_table distinct h h' with ⟨-, hv, hv'⟩ | ⟨-, hv, hv'⟩ | ⟨-, -, -, -, -, hv, hv'⟩
  · rw [hv, hv']
  · rw [hv, hv']
  · rw [hv, hv']

/-- Two deliveries have rows in common places if they come from one operation, or if both are
ordered and have an offset of one group in common. -/
def Collides (c c' : CheckPoint) : Prop :=
  c.operation = c'.operation ∨
    (c.kind = .order ∧ c'.kind = .order ∧ c.group = c'.group ∧ c.queue = c'.queue ∧
      ∃ o, o ∈ c.batch.offsets ∧ o ∈ c'.batch.offsets)

instance : Decidable (c.Collides c') :=
  inferInstanceAs (Decidable (c.operation = c'.operation ∨ c.kind = .order ∧ c'.kind = .order ∧
    c.group = c'.group ∧ c.queue = c'.queue ∧ ∃ o ∈ c.batch.offsets, o ∈ c'.batch.offsets))

theorem collides_of_rows (distinct : tables.distinct) (h : (a, v) ∈ c.rows tables)
    (h' : (a, v') ∈ c'.rows tables) : c.Collides c' := by
  rcases same_table distinct h h' with
    ⟨key, -, -⟩ | ⟨key, -, -⟩ | ⟨ordered, ordered', g, q, o, -, -⟩
  · exact Or.inl (keyOf_inj.1 key).2
  · exact Or.inl (congrArg TimerKey.operation key)
  · exact Or.inr ⟨ordered, ordered', g, q, o⟩

/-- The lock of an offset of an ordered delivery. -/
theorem lock_mem_rows (ordered : c.kind = .order) {o : UInt64} (ho : o ∈ c.batch.offsets) :
    (⟨tables.locks, OrderLock.key c.group c.queue o⟩, OrderLock.value c.operation) ∈
      c.rows tables :=
  mem_rows.2 (Or.inr (Or.inr ⟨ordered, o, ho, rfl, rfl⟩))

end CheckPoint

/-! ### The rows of a queue -/

/-- The addresses that belong to a queue: in the table of check points those that begin with the
queue, in the other two those that name it. -/
def Owned (tables : Config) (q : QueueId) (a : Address) : Prop :=
  (a.space = tables.checkPoints ∧ (CheckPoint.scope q).isPrefixOf a.key = true) ∨
    (a.space = tables.timers ∧ ∃ due operation, a.key = TimerKey.encode ⟨due, q, operation⟩) ∨
    (a.space = tables.locks ∧ ∃ group offset, a.key = OrderLock.key group q offset)

theorem owned_of_mem_rows {tables : Config} {c : CheckPoint} {a : Address} {v : Bytes}
    (h : (a, v) ∈ c.rows tables) : Owned tables c.queue a := by
  rcases CheckPoint.mem_rows.1 h with ⟨rfl, -⟩ | ⟨rfl, -⟩ | ⟨-, o, -, rfl, -⟩
  · exact Or.inl ⟨rfl, CheckPoint.scope_isPrefixOf_keyOf c.queue c.operation⟩
  · exact Or.inr (Or.inl ⟨rfl, c.nextVisible, c.operation, rfl⟩)
  · exact Or.inr (Or.inr ⟨rfl, c.group, o, rfl⟩)

/-! ### What a batch does to a row -/

namespace Rows

variable {r : Rows} {qs : List Request} {a : Address}

theorem get_apply_of_ne (h : ∀ q ∈ qs, q.address ≠ a) :
    (r.apply qs).get a.space a.key = r.get a.space a.key := by
  induction qs generalizing r with
  | nil => rfl
  | cons q qs ih =>
    rw [apply_cons, ih fun q' hq' => h q' (List.mem_cons_of_mem q hq'), get_request,
      if_neg (h q List.mem_cons_self)]

/-- Where all requests on an address agree, they decide. -/
theorem get_apply_of_agree {v : Option Bytes} (some_at : ∃ q ∈ qs, q.address = a)
    (agree : ∀ q ∈ qs, q.address = a → q.value? = v) : (r.apply qs).get a.space a.key = v := by
  induction qs generalizing r with
  | nil =>
    obtain ⟨q, hq, -⟩ := some_at
    cases hq
  | cons q qs ih =>
    have agree' : ∀ q' ∈ qs, q'.address = a → q'.value? = v := fun q' hq' =>
      agree q' (List.mem_cons_of_mem q hq')
    rw [apply_cons]
    by_cases later : ∃ q' ∈ qs, q'.address = a
    · exact ih later agree'
    · have last : ∀ q' ∈ qs, q'.address ≠ a := fun q' hq' ha => later ⟨q', hq', ha⟩
      obtain ⟨q', hq', ha⟩ := some_at
      rcases List.mem_cons.1 hq' with rfl | hq'
      · rw [get_apply_of_ne last, get_request, if_pos ha]
        exact agree q' List.mem_cons_self ha
      · exact absurd ha (last q' hq')

end Rows

namespace Act

variable {tables : Config} {gone wanted : List CheckPoint} {r : Rows} {a : Address} {v : Bytes}

/-- Whether some delivery of a list has a row at an address. -/
def Touches (tables : Config) (cs : List CheckPoint) (a : Address) : Prop :=
  ∃ c ∈ cs, ∃ v, (a, v) ∈ c.rows tables

theorem mem_flatMap_puts {q : Request} :
    q ∈ wanted.flatMap (·.puts tables) ↔
      ∃ c ∈ wanted, ∃ row ∈ c.rows tables, .put row.1.space row.1.key row.2 = q := by
  simp only [List.mem_flatMap, CheckPoint.puts_eq, List.mem_map]

theorem mem_flatMap_deletes {q : Request} :
    q ∈ gone.flatMap (·.deletes tables) ↔
      ∃ c ∈ gone, ∃ row ∈ c.rows tables, .delete row.1.space row.1.key = q := by
  simp only [List.mem_flatMap, CheckPoint.deletes_eq, List.mem_map]

/-- A replacement writes the rows of what is wanted. -/
theorem get_replacement_of_wanted {c : CheckPoint} (hc : c ∈ wanted) (h : (a, v) ∈ c.rows tables)
    (alone : ∀ c' ∈ wanted, ∀ v', (a, v') ∈ c'.rows tables → v' = v) :
    (r.apply (replacement tables gone wanted)).get a.space a.key = some v := by
  rw [replacement, Rows.apply_append]
  refine Rows.get_apply_of_agree ⟨_, mem_flatMap_puts.2 ⟨c, hc, (a, v), h, rfl⟩, rfl⟩ ?_
  intro q hq ha
  obtain ⟨c', hc', ⟨a', v'⟩, h', rfl⟩ := mem_flatMap_puts.1 hq
  obtain rfl : a' = a := ha
  exact congrArg some (alone c' hc' v' h')

theorem get_replacement_of_untouched (unwanted : ¬ Touches tables wanted a) :
    (r.apply (replacement tables gone wanted)).get a.space a.key =
      (r.apply (gone.flatMap (·.deletes tables))).get a.space a.key := by
  rw [replacement, Rows.apply_append]
  refine Rows.get_apply_of_ne fun q hq ha => ?_
  obtain ⟨c, hc, ⟨a', v⟩, h, rfl⟩ := mem_flatMap_puts.1 hq
  obtain rfl : a' = a := ha
  exact unwanted ⟨c, hc, v, h⟩

/-- It removes the rows of what is gone, -/
theorem get_replacement_of_gone (unwanted : ¬ Touches tables wanted a) (h : Touches tables gone a) :
    (r.apply (replacement tables gone wanted)).get a.space a.key = none := by
  rw [get_replacement_of_untouched unwanted]
  obtain ⟨c, hc, v, h⟩ := h
  refine Rows.get_apply_of_agree ⟨_, mem_flatMap_deletes.2 ⟨c, hc, (a, v), h, rfl⟩, rfl⟩ ?_
  intro q hq _
  obtain ⟨c', -, row, -, rfl⟩ := mem_flatMap_deletes.1 hq
  rfl

/-- and leaves all other rows alone. -/
theorem get_replacement_of_other (unwanted : ¬ Touches tables wanted a)
    (stays : ¬ Touches tables gone a) :
    (r.apply (replacement tables gone wanted)).get a.space a.key = r.get a.space a.key := by
  rw [get_replacement_of_untouched unwanted]
  refine Rows.get_apply_of_ne fun q hq ha => ?_
  obtain ⟨c, hc, ⟨a', v⟩, h, rfl⟩ := mem_flatMap_deletes.1 hq
  obtain rfl : a' = a := ha
  exact stays ⟨c, hc, v, h⟩

/-- Writing one delivery, and removing one, are replacements. -/
theorem puts_eq_replacement (c : CheckPoint) (tables : Config) :
    c.puts tables = replacement tables [] [c] := by
  simp [replacement]

theorem deletes_eq_replacement (c : CheckPoint) (tables : Config) :
    c.deletes tables = replacement tables [c] [] := by
  simp [replacement]

theorem not_touches_of_not_owned {q : QueueId} {cs : List CheckPoint} (own : ∀ c ∈ cs, c.queue = q)
    (foreign : ¬ Owned tables q a) : ¬ Touches tables cs a := by
  intro h
  obtain ⟨c, hc, v, h⟩ := h
  refine foreign ?_
  rw [← own c hc]
  exact owned_of_mem_rows h

end Act

/-! ### Sets of deliveries -/

/-- No two check points of a set share an address. -/
def Apart (tables : Config) (live : Set CheckPoint) : Prop :=
  ∀ c ∈ live, ∀ c' ∈ live, ∀ a v v', (a, v) ∈ c.rows tables → (a, v') ∈ c'.rows tables → c = c'

theorem Apart.subset {tables : Config} {live live' : Set CheckPoint} (h : Apart tables live)
    (sub : live' ⊆ live) : Apart tables live' :=
  fun c hc c' hc' => h c (sub hc) c' (sub hc')

/-- One more check point keeps a set apart if it collides with none of the others. -/
theorem Apart.insert {tables : Config} {live : Set CheckPoint} {c : CheckPoint}
    (distinct : tables.distinct) (h : Apart tables live) (new : ∀ c' ∈ live, ¬ c.Collides c') :
    Apart tables (insert c live) := by
  rintro c₁ (rfl | h₁) c₂ (rfl | h₂) a v v' row row'
  · rfl
  · exact absurd (CheckPoint.collides_of_rows distinct row row') (new c₂ h₂)
  · exact absurd (CheckPoint.collides_of_rows distinct row' row) (new c₁ h₁)
  · exact h c₁ h₁ c₂ h₂ a v v' row row'

/-- The rows of the queue are the image of a set of check points. -/
structure Mirrors (tables : Config) (q : QueueId) (r : Rows) (live : Set CheckPoint) : Prop where
  /-- The check points are of the queue. -/
  own : ∀ c ∈ live, c.queue = q
  /-- The rows of the queue are the rows of the check points. -/
  get_iff : ∀ a v, Owned tables q a →
    (r.get a.space a.key = some v ↔ ∃ c ∈ live, (a, v) ∈ c.rows tables)

/-- The rows of the queue have become the image of a set of check points, and all other rows are
the same. -/
structure Remirrors (tables : Config) (q : QueueId) (r r' : Rows) (live : Set CheckPoint) :
    Prop where
  mirrors : Mirrors tables q r' live
  frame : ∀ a, ¬ Owned tables q a → r'.get a.space a.key = r.get a.space a.key

namespace Mirrors

variable {tables : Config} {q : QueueId} {r : Rows} {live : Set CheckPoint} {c c' : CheckPoint}
  {a : Address} {v v' : Bytes}

/-- A queue without rows has nothing in flight. -/
theorem of_none (h : ∀ a, Owned tables q a → r.get a.space a.key = none) :
    Mirrors tables q r ∅ where
  own c hc := hc.elim
  get_iff a v owned := by
    rw [h a owned]
    constructor
    · intro none
      cases none
    · intro h
      obtain ⟨c, hc, -⟩ := h
      exact hc.elim

theorem get_of_mem (m : Mirrors tables q r live) (hc : c ∈ live) (h : (a, v) ∈ c.rows tables) :
    r.get a.space a.key = some v := by
  have owned := owned_of_mem_rows h
  rw [m.own c hc] at owned
  exact (m.get_iff a v owned).2 ⟨c, hc, h⟩

theorem get_checkPoint (m : Mirrors tables q r live) (hc : c ∈ live) :
    r.get tables.checkPoints c.key = some c.encode :=
  m.get_of_mem hc (a := ⟨tables.checkPoints, c.key⟩) (CheckPoint.mem_rows.2 (Or.inl ⟨rfl, rfl⟩))

/-- An operation has left at most one delivery. -/
theorem eq_of_operation (m : Mirrors tables q r live) (hc : c ∈ live) (hc' : c' ∈ live)
    (same : c.operation = c'.operation) : c = c' := by
  have key : c.key = c'.key := CheckPoint.keyOf_inj.2 ⟨(m.own c hc).trans (m.own c' hc').symm, same⟩
  have row := m.get_checkPoint hc
  rw [key, m.get_checkPoint hc', Option.some.injEq] at row
  exact (CheckPoint.encode_inj.1 row).symm

/-- Live check points do not collide. -/
theorem eq_of_collides (m : Mirrors tables q r live) (hc : c ∈ live) (hc' : c' ∈ live)
    (h : c.Collides c') : c = c' := by
  rcases h with same | ⟨ordered, ordered', group, queue, o, ho, ho'⟩
  · exact m.eq_of_operation hc hc' same
  · have lock := m.get_of_mem hc (CheckPoint.lock_mem_rows ordered ho)
    rw [group, queue] at lock
    have lock' := m.get_of_mem hc' (CheckPoint.lock_mem_rows ordered' ho')
    rw [lock, Option.some.injEq, OrderLock.value_inj] at lock'
    exact m.eq_of_operation hc hc' lock'

/-- A row tells whose it is. -/
theorem apart (distinct : tables.distinct) (m : Mirrors tables q r live) : Apart tables live :=
  fun _ hc _ hc' _ _ _ h h' => m.eq_of_collides hc hc' (CheckPoint.collides_of_rows distinct h h')

/-- A check point row of the queue holds a live check point, under its key. -/
theorem checkPoint_of_get (distinct : tables.distinct) (m : Mirrors tables q r live) {key : Bytes}
    (stem : (CheckPoint.scope q).isPrefixOf key = true)
    (row : r.get tables.checkPoints key = some v) : ∃ c ∈ live, key = c.key ∧ v = c.encode := by
  obtain ⟨c, hc, h⟩ := (m.get_iff ⟨tables.checkPoints, key⟩ v (Or.inl ⟨rfl, stem⟩)).1 row
  obtain ⟨ct, cl, tl⟩ := distinct
  rcases CheckPoint.mem_rows.1 h with ⟨ha, hv⟩ | ⟨ha, -⟩ | ⟨-, o, -, ha, -⟩
  · exact ⟨c, hc, (Address.mk.inj ha).2, hv⟩
  · exact absurd (Address.mk.inj ha).1 ct
  · exact absurd (Address.mk.inj ha).1 cl

/-- The live check points are those that their rows hold. -/
theorem mem_iff (distinct : tables.distinct) (m : Mirrors tables q r live) :
    c ∈ live ↔ c.queue = q ∧ r.get tables.checkPoints c.key = some c.encode := by
  constructor
  · exact fun hc => ⟨m.own c hc, m.get_checkPoint hc⟩
  · intro h
    obtain ⟨own, row⟩ := h
    have stem : (CheckPoint.scope q).isPrefixOf c.key = true := by
      rw [← own]
      exact CheckPoint.scope_isPrefixOf_keyOf c.queue c.operation
    obtain ⟨c', hc', -, same⟩ := m.checkPoint_of_get distinct stem row
    rw [CheckPoint.encode_inj.1 same]
    exact hc'

/-- Taking check points out of a mirrored set and putting others in. -/
theorem replace (distinct : tables.distinct) (m : Mirrors tables q r live)
    {gone wanted : List CheckPoint} {live' : Set CheckPoint} (leave : ∀ c ∈ gone, c ∈ live)
    (own : ∀ c ∈ wanted, c.queue = q)
    (mem : ∀ c, c ∈ live' ↔ (c ∈ live ∧ c ∉ gone) ∨ c ∈ wanted) (apart' : Apart tables live') :
    Remirrors tables q r (r.apply (Act.replacement tables gone wanted)) live' := by
  constructor
  case frame =>
    intro a foreign
    exact Act.get_replacement_of_other (Act.not_touches_of_not_owned own foreign)
      (Act.not_touches_of_not_owned (fun c hc => m.own c (leave c hc)) foreign)
  case mirrors =>
    refine ⟨fun c hc => ?_, fun a v owned => ?_⟩
    · rcases (mem c).1 hc with ⟨hc, -⟩ | hc
      · exact m.own c hc
      · exact own c hc
    by_cases written : Act.Touches tables wanted a
    · obtain ⟨c, hc, v₀, h⟩ := written
      have hc' : c ∈ live' := (mem c).2 (Or.inr hc)
      -- Whoever of the new set has a row at this address is `c`.
      have same {c'} (hc'' : c' ∈ live') {v'} (h' : (a, v') ∈ c'.rows tables) : v' = v₀ := by
        obtain rfl := apart' c hc' c' hc'' a v₀ v' h h'
        exact CheckPoint.rows_functional distinct h' h
      rw [Act.get_replacement_of_wanted hc h fun c' hc'' v' => same ((mem c').2 (Or.inr hc'')),
        Option.some.injEq]
      constructor
      · intro same
        subst same
        exact ⟨c, hc', h⟩
      · intro h
        obtain ⟨c', hc'', h'⟩ := h
        exact (same hc'' h').symm
    by_cases removed : Act.Touches tables gone a
    · rw [Act.get_replacement_of_gone written removed]
      obtain ⟨g, hg, v₀, h⟩ := removed
      constructor
      · intro none
        cases none
      · intro h
        obtain ⟨c, hc, h'⟩ := h
        rcases (mem c).1 hc with ⟨hc, stays⟩ | hc
        · obtain rfl := m.apart distinct g (leave g hg) c hc a v₀ v h h'
          exact absurd hg stays
        · exact absurd ⟨c, hc, v, h'⟩ written
    · rw [Act.get_replacement_of_other written removed, m.get_iff a v owned]
      constructor
      · intro h
        obtain ⟨c, hc, h⟩ := h
        exact ⟨c, (mem c).2 (Or.inl ⟨hc, fun hg => removed ⟨c, hg, v, h⟩⟩), h⟩
      · intro h
        obtain ⟨c, hc, h⟩ := h
        rcases (mem c).1 hc with ⟨hc, -⟩ | hc
        · exact ⟨c, hc, h⟩
        · exact absurd ⟨c, hc, v, h⟩ written

/-- What a renewal does to a row. -/
theorem get_moves (t : UInt64) :
    (r.apply (c.moves tables t)).get a.space a.key =
      if ⟨tables.timers, (c.renewed t).timerKey.encode⟩ = a then some (c.renewed t).receipt.encode
      else if ⟨tables.checkPoints, c.key⟩ = a then some (c.renewed t).encode
      else if ⟨tables.timers, c.timerKey.encode⟩ = a then none
      else r.get a.space a.key := by
  simp only [CheckPoint.moves, Rows.apply_cons, Rows.apply_nil, Rows.get_request]
  rfl

/-- After a renewal the rows of the renewed delivery stand. Its locks are not written. -/
theorem get_moves_of_renewed (distinct : tables.distinct) (m : Mirrors tables q r live)
    (hc : c ∈ live) {t : UInt64} (h : (a, v) ∈ (c.renewed t).rows tables) :
    (r.apply (c.moves tables t)).get a.space a.key = some v := by
  obtain ⟨ct, cl, tl⟩ := distinct
  rw [get_moves]
  rcases CheckPoint.mem_rows.1 h with ⟨rfl, rfl⟩ | ⟨rfl, rfl⟩ | ⟨ordered, o, ho, rfl, hv⟩
  · rw [if_neg fun eq => ct (Address.mk.inj eq).1.symm]
    exact if_pos rfl
  · exact if_pos rfl
  · -- The lock stands already, since the delivery that is renewed has it.
    have lock := m.get_of_mem hc (CheckPoint.mem_rows.2 (Or.inr (Or.inr ⟨ordered, o, ho, rfl, hv⟩)))
    rw [if_neg fun eq => tl (Address.mk.inj eq).1, if_neg fun eq => cl (Address.mk.inj eq).1,
      if_neg fun eq => tl (Address.mk.inj eq).1]
    exact lock

/-- What the renewed delivery does not have: the old timer is removed, and nothing else changes. -/
theorem get_moves_of_not_renewed {t : UInt64} (h : ¬ Act.Touches tables [c.renewed t] a) :
    (r.apply (c.moves tables t)).get a.space a.key =
      if ⟨tables.timers, c.timerKey.encode⟩ = a then none else r.get a.space a.key := by
  rw [get_moves, if_neg, if_neg]
  · intro eq
    exact h ⟨_, List.mem_singleton_self _, _, CheckPoint.mem_rows.2 (Or.inl ⟨eq.symm, rfl⟩)⟩
  · intro eq
    exact h ⟨_, List.mem_singleton_self _, _,
      CheckPoint.mem_rows.2 (Or.inr (Or.inl ⟨eq.symm, rfl⟩))⟩

/-- A row of a delivery that the renewed one does not have is its old timer. -/
theorem eq_timer_of_not_renewed {t : UInt64} (h : (a, v) ∈ c.rows tables)
    (unwanted : ¬ Act.Touches tables [c.renewed t] a) : ⟨tables.timers, c.timerKey.encode⟩ = a := by
  rcases CheckPoint.mem_rows.1 h with ⟨ha, -⟩ | ⟨ha, -⟩ | ⟨ordered, o, ho, ha, hv⟩
  · exact absurd ⟨_, List.mem_singleton_self _, (c.renewed t).encode,
      CheckPoint.mem_rows.2 (Or.inl ⟨ha, rfl⟩)⟩ unwanted
  · exact ha.symm
  · exact absurd ⟨_, List.mem_singleton_self _, v,
      CheckPoint.mem_rows.2 (Or.inr (Or.inr ⟨ordered, o, ho, ha, hv⟩))⟩ unwanted

/-- A renewal writes only what changes. The effect is that of replacing the delivery. -/
theorem apply_moves (distinct : tables.distinct) (m : Mirrors tables q r live) (hc : c ∈ live)
    (t : UInt64) :
    r.apply (c.moves tables t) = r.apply (Act.replacement tables [c] [c.renewed t]) := by
  refine Rows.ext_get fun space key => ?_
  let a : Address := ⟨space, key⟩
  show (r.apply (c.moves tables t)).get a.space a.key =
    (r.apply (Act.replacement tables [c] [c.renewed t])).get a.space a.key
  by_cases written : Act.Touches tables [c.renewed t] a
  · obtain ⟨c', hc', v, h⟩ := written
    obtain rfl := List.mem_singleton.1 hc'
    rw [m.get_moves_of_renewed distinct hc h, Act.get_replacement_of_wanted hc' h]
    intro c' hc'' v' h'
    obtain rfl := List.mem_singleton.1 hc''
    exact CheckPoint.rows_functional distinct h' h
  rw [get_moves_of_not_renewed written]
  by_cases removed : Act.Touches tables [c] a
  · rw [Act.get_replacement_of_gone written removed]
    obtain ⟨c', hc', v, h⟩ := removed
    obtain rfl := List.mem_singleton.1 hc'
    exact if_pos (eq_timer_of_not_renewed h written)
  · rw [Act.get_replacement_of_other written removed]
    refine if_neg fun eq => removed ⟨c, List.mem_singleton_self c, c.receipt.encode, ?_⟩
    exact CheckPoint.mem_rows.2 (Or.inr (Or.inl ⟨eq.symm, rfl⟩))

end Mirrors

end QueueLedger
