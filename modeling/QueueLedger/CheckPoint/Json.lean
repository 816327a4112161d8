import QueueLedger.CheckPoint
import QueueLedger.Operation.Json
/-!
# The JSON forms of the records of a delivery

The check point, the receipt and the timer key of a delivery as objects with the fields of
their binary records. Nothing may be missing.
-/

namespace QueueLedger

namespace CheckPoint

/-- The names of the fields. -/
def fieldNames : List String :=
  ["topic_id", "queue_id", "message_offset", "count", "consumer_group_id", "operation_id",
    "pop_type", "delivery_timestamp", "next_visible_timestamp", "reconsume_count"]

/-- The JSON form. -/
def toJson (c : CheckPoint) : Json :=
  .obj [("topic_id", .u64 c.queue.topic), ("queue_id", .u32 c.queue.queue),
    ("message_offset", .u64 c.offset), ("count", .u32 c.count), ("consumer_group_id", .u64 c.group),
    ("operation_id", .u64 c.operation), ("pop_type", c.kind.toJson),
    ("delivery_timestamp", .u64 c.delivered), ("next_visible_timestamp", .u64 c.nextVisible),
    ("reconsume_count", .u32 c.reconsume)]

/-- Reads the JSON form. -/
def ofJson? (j : Json) : Option CheckPoint :=
  match j.members fieldNames with
  | some [topic, queue, offset, count, group, operation, kind, delivered, nextVisible,
      reconsume] => do
    let topic ← Json.required Json.asU64 topic
    let queue ← Json.required Json.asU32 queue
    let offset ← Json.required Json.asU64 offset
    let count ← Json.required Json.asU32 count
    let group ← Json.required Json.asU64 group
    let operation ← Json.required Json.asU64 operation
    let kind ← Json.required PopKind.ofJson? kind
    let delivered ← Json.required Json.asU64 delivered
    let nextVisible ← Json.required Json.asU64 nextVisible
    let reconsume ← Json.required Json.asU32 reconsume
    pure ⟨⟨topic, queue⟩, offset, count, group, operation, kind, delivered, nextVisible, reconsume⟩
  | _ => none

end CheckPoint

namespace Receipt

/-- The names of the fields. -/
def fieldNames : List String :=
  ["consumer_group_id", "topic_id", "queue_id", "message_offset", "operation_id"]

/-- The JSON form. -/
def toJson (r : Receipt) : Json :=
  .obj [("consumer_group_id", .u64 r.group), ("topic_id", .u64 r.queue.topic),
    ("queue_id", .u32 r.queue.queue), ("message_offset", .u64 r.offset),
    ("operation_id", .u64 r.operation)]

/-- Reads the JSON form. -/
def ofJson? (j : Json) : Option Receipt :=
  match j.members fieldNames with
  | some [group, topic, queue, offset, operation] => do
    let group ← Json.required Json.asU64 group
    let topic ← Json.required Json.asU64 topic
    let queue ← Json.required Json.asU32 queue
    let offset ← Json.required Json.asU64 offset
    let operation ← Json.required Json.asU64 operation
    pure ⟨group, ⟨topic, queue⟩, offset, operation⟩
  | _ => none

end Receipt

namespace TimerKey

/-- The names of the fields. -/
def fieldNames : List String := ["next_visible_timestamp", "topic_id", "queue_id", "operation_id"]

/-- The JSON form. -/
def toJson (k : TimerKey) : Json :=
  .obj [("next_visible_timestamp", .u64 k.due), ("topic_id", .u64 k.queue.topic),
    ("queue_id", .u32 k.queue.queue), ("operation_id", .u64 k.operation)]

/-- Reads the JSON form. -/
def ofJson? (j : Json) : Option TimerKey :=
  match j.members fieldNames with
  | some [due, topic, queue, operation] => do
    let due ← Json.required Json.asU64 due
    let topic ← Json.required Json.asU64 topic
    let queue ← Json.required Json.asU32 queue
    let operation ← Json.required Json.asU64 operation
    pure ⟨due, ⟨topic, queue⟩, operation⟩
  | _ => none

@[simp] theorem ofJson?_toJson (k : TimerKey) : ofJson? k.toJson = some k := by
  simp [ofJson?, toJson, fieldNames, Json.members, Json.named_of_nodup, List.lookup_cons]

end TimerKey

end QueueLedger
