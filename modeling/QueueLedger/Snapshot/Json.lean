import QueueLedger.CheckPoint.Json
import QueueLedger.Snapshot
/-!
# The JSON form of a snapshot

Bitmaps appear as lists of bytes. The last operation may be null or missing; nothing else may
be either.
-/

namespace QueueLedger

namespace GroupCounters

/-- The names of the fields. -/
def fieldNames : List String :=
  ["consumer_group_id", "consume_offset", "ack_offset", "retry_consume_offset", "retry_ack_offset"]

/-- The members of the JSON form. -/
def toFields (c : GroupCounters) : List (String × Json) :=
  [("consumer_group_id", .u64 c.group), ("consume_offset", .u64 c.consume),
    ("ack_offset", .u64 c.ack), ("retry_consume_offset", .u64 c.retryConsume),
    ("retry_ack_offset", .u64 c.retryAck)]

/-- The JSON form. -/
def toJson (c : GroupCounters) : Json := .obj c.toFields

/-- Reads the values of the fields. -/
def ofFields? (group consume ack retryConsume retryAck : Option Json) : Option GroupCounters := do
  let group ← Json.required Json.asU64 group
  let consume ← Json.required Json.asU64 consume
  let ack ← Json.required Json.asU64 ack
  let retryConsume ← Json.required Json.asU64 retryConsume
  let retryAck ← Json.required Json.asU64 retryAck
  pure ⟨group, consume, ack, retryConsume, retryAck⟩

/-- Reads the JSON form. -/
def ofJson? (j : Json) : Option GroupCounters :=
  match j.members fieldNames with
  | some [group, consume, ack, retryConsume, retryAck] =>
    ofFields? group consume ack retryConsume retryAck
  | _ => none

@[simp] theorem ofJson?_toJson (c : GroupCounters) : ofJson? c.toJson = some c := by
  simp [ofJson?, ofFields?, toJson, toFields, fieldNames, Json.members, Json.named_of_nodup,
    List.lookup_cons]

end GroupCounters

namespace GroupImage

/-- The names of the fields. -/
def fieldNames : List String :=
  GroupCounters.fieldNames ++
    ["ack_base_offset", "ack_bitmap", "retry_ack_base_offset", "retry_ack_bitmap"]

/-- A string of bytes as a list of numbers. -/
def bytesToJson (b : Bytes) : Json := .arr (b.map Json.u8)

/-- The JSON form. -/
def toJson (i : GroupImage) : Json :=
  .obj (i.counters.toFields ++
    [("ack_base_offset", .u64 i.base), ("ack_bitmap", bytesToJson i.bitmap),
      ("retry_ack_base_offset", .u64 i.retryBase),
      ("retry_ack_bitmap", bytesToJson i.retryBitmap)])

/-- Reads the JSON form. -/
def ofJson? (j : Json) : Option GroupImage :=
  match j.members fieldNames with
  | some [group, consume, ack, retryConsume, retryAck, base, bitmap, retryBase, retryBitmap] => do
    let counters ← GroupCounters.ofFields? group consume ack retryConsume retryAck
    let base ← Json.required Json.asU64 base
    let bitmap ← Json.required (Json.asList Json.asU8) bitmap
    let retryBase ← Json.required Json.asU64 retryBase
    let retryBitmap ← Json.required (Json.asList Json.asU8) retryBitmap
    pure ⟨counters, base, bitmap, retryBase, retryBitmap⟩
  | _ => none

end GroupImage

namespace Snapshot

/-- The names of the fields. -/
def fieldNames : List String :=
  ["snapshot_end_offset", "kv_snapshot_version", "consumer_groups", "check_points"]

/-- The JSON form. -/
def toJson (s : Snapshot) : Json :=
  .obj [("snapshot_end_offset", .u64? s.cursor), ("kv_snapshot_version", .u64 s.storeVersion),
    ("consumer_groups", .arr (s.groups.map GroupImage.toJson)),
    ("check_points", .arr (s.checkPoints.map CheckPoint.toJson))]

/-- Reads the JSON form. -/
def ofJson? (j : Json) : Option Snapshot :=
  match j.members fieldNames with
  | some [cursor, storeVersion, groups, checkPoints] => do
    let cursor ← Json.optional Json.asU64 cursor
    let storeVersion ← Json.required Json.asU64 storeVersion
    let groups ← Json.required (Json.asList GroupImage.ofJson?) groups
    let checkPoints ← Json.required (Json.asList CheckPoint.ofJson?) checkPoints
    pure ⟨cursor, storeVersion, groups, checkPoints⟩
  | _ => none

end Snapshot

end QueueLedger
