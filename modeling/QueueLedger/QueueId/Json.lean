import QueueLedger.Json
import QueueLedger.QueueId
/-!
# The JSON form of a queue
-/

namespace QueueLedger.QueueId

/-- The names of the fields. -/
def fieldNames : List String := ["topic_id", "queue_id"]

/-- The JSON form. -/
def toJson (q : QueueId) : Json := .obj [("topic_id", .u64 q.topic), ("queue_id", .u32 q.queue)]

/-- Reads the JSON form. -/
def ofJson? (j : Json) : Option QueueId :=
  match j.members fieldNames with
  | some [topic, queue] => do
    let topic ← Json.required Json.asU64 topic
    let queue ← Json.required Json.asU32 queue
    pure ⟨topic, queue⟩
  | _ => none

end QueueLedger.QueueId
