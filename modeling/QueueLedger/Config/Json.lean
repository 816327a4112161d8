import QueueLedger.Config
import QueueLedger.Json
/-!
# The JSON form of the options

Every field may be missing and takes its standard value then. None may be null.
-/

namespace QueueLedger.Config

/-- The names of the fields. -/
def fieldNames : List String :=
  ["check_point_namespace", "timer_tag_namespace", "order_index_namespace", "ack_rebase_threshold"]

/-- The JSON form. -/
def toJson (c : Config) : Json :=
  .obj [("check_point_namespace", .str c.checkPoints), ("timer_tag_namespace", .str c.timers),
    ("order_index_namespace", .str c.locks), ("ack_rebase_threshold", .u64 c.rebaseThreshold)]

/-- Reads the JSON form. -/
def ofJson? (j : Json) : Option Config :=
  match j.partialMembers fieldNames with
  | some [checkPoints, timers, locks, threshold] => do
    let checkPoints ← Json.defaulted Json.asStr standard.checkPoints checkPoints
    let timers ← Json.defaulted Json.asStr standard.timers timers
    let locks ← Json.defaulted Json.asStr standard.locks locks
    let threshold ← Json.defaulted Json.asU64 standard.rebaseThreshold threshold
    pure ⟨checkPoints, timers, locks, threshold⟩
  | _ => none

end QueueLedger.Config
