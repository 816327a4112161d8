/-!
# Queues

A queue is one numbered lane of a topic. Queues are ordered by topic, then by number.
-/

namespace QueueLedger

/-- The address of a queue. -/
structure QueueId where
  /-- The topic. -/
  topic : UInt64
  /-- The number of the queue within its topic. -/
  queue : UInt32
  deriving Repr, DecidableEq, Inhabited, Hashable

namespace QueueId

instance : Ord QueueId := ⟨compareLex (compareOn topic) (compareOn queue)⟩

instance : Std.TransOrd QueueId :=
  inferInstanceAs (Std.TransCmp (compareLex (compareOn topic) (compareOn queue)))

instance : Std.LawfulEqOrd QueueId where
  eq_of_compare := by
    intro a b h
    obtain ⟨topics, queues⟩ := compareLex_eq_eq.1 h
    have ht : a.topic = b.topic := Std.LawfulEqCmp.eq_of_compare topics
    have hq : a.queue = b.queue := Std.LawfulEqCmp.eq_of_compare queues
    cases a; cases b; simp_all

/-- The written form of a queue: its topic and its number. -/
def text (q : QueueId) : String := toString q.topic ++ "/" ++ toString q.queue

end QueueId

end QueueLedger
