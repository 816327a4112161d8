import QueueLedger.Proofs.KeyOrder
import QueueLedger.Proofs.Tables
/-!
# What keys say

A key of one of the three tables is its fields, in order and in full width. So the order of the
bytes is the order of the fields, different fields give different keys, and where a key belongs can
be read off its front: to a queue in the table of check points, to the past or to the future in the
table of timers (`keys_embed_fields`).
-/

namespace QueueLedger

/-- The keys of a queue are those that begin with its leading bytes. -/
theorem CheckPoint.scope_isPrefixOf_iff {q q' : QueueId} {n : UInt64} :
    (scope q).isPrefixOf (keyOf q' n) = true ↔ q = q' := by
  constructor
  · intro stem
    exact eq_of_scope_isPrefixOf stem (scope_isPrefixOf_keyOf q' n)
  · rintro rfl
    exact scope_isPrefixOf_keyOf q n

/-- **Keys embed the order and the scope of their fields.** For all fields:

* keys of check points compare as (topic, queue, operation id), keys of locks as (group, topic,
  queue, offset), and keys of timers as (due time, topic, queue, operation id), which is the order
  of timer keys itself; and keys are equal only if all their fields are;
* the key of a check point begins with the leading bytes of a queue exactly if its topic and its
  queue are those of the queue;
* the key of a timer lies before the bytes of a time exactly if the timer is due before it. -/
theorem keys_embed_fields :
    (∀ (q q' : QueueId) (n n' : UInt64),
      compare (CheckPoint.keyOf q n) (CheckPoint.keyOf q' n') =
          (compare q.topic q'.topic).then ((compare q.queue q'.queue).then (compare n n')) ∧
        (CheckPoint.keyOf q n = CheckPoint.keyOf q' n' ↔
          q.topic = q'.topic ∧ q.queue = q'.queue ∧ n = n')) ∧
    (∀ (g g' : UInt64) (q q' : QueueId) (o o' : UInt64),
      compare (OrderLock.key g q o) (OrderLock.key g' q' o') =
          (compare g g').then
            ((compare q.topic q'.topic).then ((compare q.queue q'.queue).then (compare o o'))) ∧
        (OrderLock.key g q o = OrderLock.key g' q' o' ↔
          g = g' ∧ q.topic = q'.topic ∧ q.queue = q'.queue ∧ o = o')) ∧
    (∀ k k' : TimerKey,
      compare k.encode k'.encode =
          (compare k.due k'.due).then ((compare k.queue.topic k'.queue.topic).then
            ((compare k.queue.queue k'.queue.queue).then (compare k.operation k'.operation))) ∧
        compare k.encode k'.encode = compare k k' ∧
        (k.encode = k'.encode ↔ k.due = k'.due ∧ k.queue.topic = k'.queue.topic ∧
          k.queue.queue = k'.queue.queue ∧ k.operation = k'.operation)) ∧
    (∀ (q q' : QueueId) (n : UInt64),
      (CheckPoint.scope q).isPrefixOf (CheckPoint.keyOf q' n) = true ↔
        q'.topic = q.topic ∧ q'.queue = q.queue) ∧
    ∀ (k : TimerKey) (now : UInt64),
      compare k.encode (TimerKey.horizon now) = .lt ↔ k.due < now := by
  have queue (q q' : QueueId) : q = q' ↔ q.topic = q'.topic ∧ q.queue = q'.queue := by
    rw [← QueueId.mk.injEq]
  refine ⟨fun q q' n n' => ?_, fun g g' q q' o o' => ?_, fun k k' => ?_, fun q q' n => ?_,
    fun k now => ?_⟩
  · refine ⟨CheckPoint.compare_keyOf q q' n n', ?_⟩
    rw [CheckPoint.keyOf_inj, queue, and_assoc]
  · refine ⟨OrderLock.compare_key g g' q q' o o', ?_⟩
    rw [OrderLock.key_inj, queue, and_assoc]
  · have fields := TimerKey.compare_encode k k'
    refine ⟨fields.trans (TimerKey.compare_fields k k'), fields, ?_⟩
    rw [TimerKey.encode_inj, ← and_assoc (a := k.queue.topic = _), ← queue, ← TimerKey.mk.injEq]
  · rw [CheckPoint.scope_isPrefixOf_iff, eq_comm, queue]
  · rw [← TimerKey.before_horizon, Bytes.before, Ordering.isLT_iff_eq_lt]

/-- The due time decides before all other fields, also where its last byte runs over. -/
example : (TimerKey.encode ⟨255, ⟨0xffffffffffffffff, 0xffffffff⟩, 0xffffffffffffffff⟩).before
    (TimerKey.encode ⟨256, ⟨0, 0⟩, 0⟩) = true := by decide

end QueueLedger
