import QueueLedger.Operation
import QueueLedger.QueueId.Json
/-!
# The JSON forms of operations

An operation is an object of one member: the kind of the operation and its record. Nothing
may be missing from a record.
-/

namespace QueueLedger

namespace PopKind

/-- The word for the kind in JSON. -/
def word : PopKind → String
  | normal => "Normal"
  | order => "Order"
  | retry => "Retry"

/-- Every kind. -/
def all : List PopKind := [normal, order, retry]

/-- The kind that a JSON value denotes. -/
def ofJson? (j : Json) : Option PopKind :=
  j.unitVariant.bind fun w => all.find? fun k => k.word == w

/-- The JSON form. -/
def toJson (k : PopKind) : Json := .str k.word

@[simp] theorem ofJson?_toJson (k : PopKind) : ofJson? k.toJson = some k := by
  cases k <;> decide

end PopKind

namespace AckKind

/-- The kind that a JSON value denotes. -/
def ofJson? (j : Json) : Option AckKind :=
  j.unitVariant.bind fun w => [normal, timeout].find? fun k => k.name == w

/-- The JSON form. -/
def toJson (k : AckKind) : Json := .str k.name

@[simp] theorem ofJson?_toJson (k : AckKind) : ofJson? k.toJson = some k := by
  cases k <;> decide

end AckKind

namespace Pop

/-- The names of the fields. -/
def fieldNames : List String :=
  ["topic_id", "queue_id", "consumer_group_id", "offset", "count", "pop_type",
    "operation_timestamp", "invisible_duration", "is_end_mark", "reconsume_count"]

/-- The JSON form. -/
def toJson (p : Pop) : Json :=
  .obj [("topic_id", .u64 p.queue.topic), ("queue_id", .u32 p.queue.queue),
    ("consumer_group_id", .u64 p.group), ("offset", .u64 p.offset), ("count", .u32 p.count),
    ("pop_type", p.kind.toJson), ("operation_timestamp", .u64 p.time),
    ("invisible_duration", .u64 p.invisible), ("is_end_mark", .bool p.endMark),
    ("reconsume_count", .u32 p.reconsume)]

/-- Reads the JSON form. -/
def ofJson? (j : Json) : Option Pop :=
  match j.members fieldNames with
  | some [topic, queue, group, offset, count, kind, time, invisible, endMark, reconsume] => do
    let topic ← Json.required Json.asU64 topic
    let queue ← Json.required Json.asU32 queue
    let group ← Json.required Json.asU64 group
    let offset ← Json.required Json.asU64 offset
    let count ← Json.required Json.asU32 count
    let kind ← Json.required PopKind.ofJson? kind
    let time ← Json.required Json.asU64 time
    let invisible ← Json.required Json.asU64 invisible
    let endMark ← Json.required Json.asBool endMark
    let reconsume ← Json.required Json.asU32 reconsume
    pure ⟨⟨topic, queue⟩, group, offset, count, kind, time, invisible, endMark, reconsume⟩
  | _ => none

end Pop

namespace Ack

/-- The names of the fields. -/
def fieldNames : List String :=
  ["topic_id", "queue_id", "operation_id", "ack_type", "operation_timestamp"]

/-- The JSON form. -/
def toJson (a : Ack) : Json :=
  .obj [("topic_id", .u64 a.queue.topic), ("queue_id", .u32 a.queue.queue),
    ("operation_id", .u64 a.target), ("ack_type", a.kind.toJson),
    ("operation_timestamp", .u64 a.time)]

/-- Reads the JSON form. -/
def ofJson? (j : Json) : Option Ack :=
  match j.members fieldNames with
  | some [topic, queue, target, kind, time] => do
    let topic ← Json.required Json.asU64 topic
    let queue ← Json.required Json.asU32 queue
    let target ← Json.required Json.asU64 target
    let kind ← Json.required AckKind.ofJson? kind
    let time ← Json.required Json.asU64 time
    pure ⟨⟨topic, queue⟩, target, kind, time⟩
  | _ => none

end Ack

namespace Renewal

/-- The names of the fields. -/
def fieldNames : List String :=
  ["topic_id", "queue_id", "operation_id", "operation_timestamp", "invisible_duration"]

/-- The JSON form. -/
def toJson (r : Renewal) : Json :=
  .obj [("topic_id", .u64 r.queue.topic), ("queue_id", .u32 r.queue.queue),
    ("operation_id", .u64 r.target), ("operation_timestamp", .u64 r.time),
    ("invisible_duration", .u64 r.invisible)]

/-- Reads the JSON form. -/
def ofJson? (j : Json) : Option Renewal :=
  match j.members fieldNames with
  | some [topic, queue, target, time, invisible] => do
    let topic ← Json.required Json.asU64 topic
    let queue ← Json.required Json.asU32 queue
    let target ← Json.required Json.asU64 target
    let time ← Json.required Json.asU64 time
    let invisible ← Json.required Json.asU64 invisible
    pure ⟨⟨topic, queue⟩, target, time, invisible⟩
  | _ => none

end Renewal

namespace Operation

/-- The JSON form. -/
def toJson : Operation → Json
  | pop p => .obj [("Pop", p.toJson)]
  | ack a => .obj [("Ack", a.toJson)]
  | renewal r => .obj [("ChangeInvisibleDuration", r.toJson)]

/-- Reads the JSON form. -/
def ofJson? (j : Json) : Option Operation :=
  match j.variant with
  | some ("Pop", some content) => (Pop.ofJson? content).map pop
  | some ("Ack", some content) => (Ack.ofJson? content).map ack
  | some ("ChangeInvisibleDuration", some content) => (Renewal.ofJson? content).map renewal
  | _ => none

end Operation

end QueueLedger
