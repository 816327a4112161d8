import QueueLedger.Config.Json
import QueueLedger.Log.Options
import QueueLedger.Proofs.JsonShape
import QueueLedger.Snapshot.Json
/-!
# The JSON forms of logged and configured values

Operations, snapshots, receipts and queues have one policy for their JSON forms, options the
opposite one. What is logged needs all of its fields: it is read back as it was, with members that
are not known ignored at any depth, and refused if a field is missing or there twice, or an integer
out of its range. Options may have any subset of their fields, and the others take their standard
values.

## Proof shape

Each type lists its cells (`Json.Cell`), which say name, shape, writer and reader of every field.
That its writer and its reader go by these cells is a computation (`tabulated`), and all the rest
follows from `Json.Tabulated.governs`. For options, an object with some of the members is read like
the full one where it has a member (`Json.lookup_of_subset`).
-/

namespace QueueLedger

open Json

/-! ### Values without inner structure -/

theorem Json.governs_bool : Governs .leaf Json.bool asBool :=
  governs_leaf Fits.bool asBool_bool

theorem Json.governs_str : Governs .leaf Json.str asStr :=
  governs_leaf Fits.str asStr_str

theorem Json.u64_ne_null (n : UInt64) : u64 n ≠ .null := by
  simp [u64, nat]

theorem Json.str_ne_null (s : String) : str s ≠ .null := by
  simp

theorem PopKind.governs : Governs .leaf PopKind.toJson PopKind.ofJson? :=
  governs_leaf (fun _ => .str _) PopKind.ofJson?_toJson

theorem AckKind.governs : Governs .leaf AckKind.toJson AckKind.ofJson? :=
  governs_leaf (fun _ => .str _) AckKind.ofJson?_toJson

/-! ### Operations -/

namespace Pop

/-- The fields of a pop. -/
def cells (p : Pop) : List Cell :=
  [.required "topic_id" .u64 u64 asU64 p.queue.topic,
    .required "queue_id" .u32 u32 asU32 p.queue.queue,
    .required "consumer_group_id" .u64 u64 asU64 p.group,
    .required "offset" .u64 u64 asU64 p.offset,
    .required "count" .u32 u32 asU32 p.count,
    .required "pop_type" .leaf PopKind.toJson PopKind.ofJson? p.kind,
    .required "operation_timestamp" .u64 u64 asU64 p.time,
    .required "invisible_duration" .u64 u64 asU64 p.invisible,
    .required "is_end_mark" .leaf Json.bool asBool p.endMark,
    .required "reconsume_count" .u32 u32 asU32 p.reconsume]

/-- The shape of a pop. -/
def shape : Shape := .record ((cells default).map Cell.toField)

theorem tabulated :
    Tabulated fieldNames ((cells default).map Cell.toField) cells toJson ofJson? where
  labels := rfl
  distinct := by decide
  same _ := rfl
  sound p := by
    simp [cells, governs_u64.required, governs_u32.required, PopKind.governs.required,
      governs_bool.required]
  writes _ := rfl
  refuses ms twice := by
    rw [ofJson?, Json.members, named_of_twice twice]
  reads ms p unique := by
    obtain ⟨⟨_, _⟩, _⟩ := p
    rw [ofJson?, Json.members, named_of_once unique]
    simp [fieldNames, cells, Cell.required, Option.bind_eq_some_iff, -Bool.exists_bool]

theorem governs : Governs shape toJson ofJson? := tabulated.governs

end Pop

namespace Ack

/-- The fields of an acknowledgment. -/
def cells (a : Ack) : List Cell :=
  [.required "topic_id" .u64 u64 asU64 a.queue.topic,
    .required "queue_id" .u32 u32 asU32 a.queue.queue,
    .required "operation_id" .u64 u64 asU64 a.target,
    .required "ack_type" .leaf AckKind.toJson AckKind.ofJson? a.kind,
    .required "operation_timestamp" .u64 u64 asU64 a.time]

/-- The shape of an acknowledgment. -/
def shape : Shape := .record ((cells default).map Cell.toField)

theorem tabulated :
    Tabulated fieldNames ((cells default).map Cell.toField) cells toJson ofJson? where
  labels := rfl
  distinct := by decide
  same _ := rfl
  sound a := by
    simp [cells, governs_u64.required, governs_u32.required, AckKind.governs.required]
  writes _ := rfl
  refuses ms twice := by
    rw [ofJson?, Json.members, named_of_twice twice]
  reads ms a unique := by
    obtain ⟨⟨_, _⟩, _⟩ := a
    rw [ofJson?, Json.members, named_of_once unique]
    simp [fieldNames, cells, Cell.required, Option.bind_eq_some_iff]

theorem governs : Governs shape toJson ofJson? := tabulated.governs

end Ack

namespace Renewal

/-- The fields of a renewal. -/
def cells (r : Renewal) : List Cell :=
  [.required "topic_id" .u64 u64 asU64 r.queue.topic,
    .required "queue_id" .u32 u32 asU32 r.queue.queue,
    .required "operation_id" .u64 u64 asU64 r.target,
    .required "operation_timestamp" .u64 u64 asU64 r.time,
    .required "invisible_duration" .u64 u64 asU64 r.invisible]

/-- The shape of a renewal. -/
def shape : Shape := .record ((cells default).map Cell.toField)

theorem tabulated :
    Tabulated fieldNames ((cells default).map Cell.toField) cells toJson ofJson? where
  labels := rfl
  distinct := by decide
  same _ := rfl
  sound r := by
    simp [cells, governs_u64.required, governs_u32.required]
  writes _ := rfl
  refuses ms twice := by
    rw [ofJson?, Json.members, named_of_twice twice]
  reads ms r unique := by
    obtain ⟨⟨_, _⟩, _⟩ := r
    rw [ofJson?, Json.members, named_of_once unique]
    simp [fieldNames, cells, Cell.required, Option.bind_eq_some_iff]

theorem governs : Governs shape toJson ofJson? := tabulated.governs

end Renewal

namespace Operation

/-- The shape of an operation. -/
def shape : Shape :=
  .choice [("Pop", Pop.shape), ("Ack", Ack.shape), ("ChangeInvisibleDuration", Renewal.shape)]

theorem governs : Governs shape toJson ofJson? where
  fits o := by
    cases o with
    | pop p => exact .choice (by simp) (Pop.governs.fits p)
    | ack a => exact .choice (by simp) (Ack.governs.fits a)
    | renewal r => exact .choice (by simp) (Renewal.governs.fits r)
  read_write o := by
    cases o with
    | pop p => simp [ofJson?, toJson, variant, Pop.governs.read_write]
    | ack a => simp [ofJson?, toJson, variant, Ack.governs.read_write]
    | renewal r => simp [ofJson?, toJson, variant, Renewal.governs.read_write]
  pads j j' padded := by
    cases padded with
    | content known inner =>
      simp only [List.mem_cons, Prod.mk.injEq, List.not_mem_nil, or_false] at known
      rcases known with ⟨rfl, rfl⟩ | ⟨rfl, rfl⟩ | ⟨rfl, rfl⟩
      · simp [ofJson?, variant, Pop.governs.pads _ _ inner]
      · simp [ofJson?, variant, Ack.governs.pads _ _ inner]
      · simp [ofJson?, variant, Renewal.governs.pads _ _ inner]
  faulty j fault := by
    cases fault with
    | content known inner =>
      simp only [List.mem_cons, Prod.mk.injEq, List.not_mem_nil, or_false] at known
      rcases known with ⟨rfl, rfl⟩ | ⟨rfl, rfl⟩ | ⟨rfl, rfl⟩
      · simp [ofJson?, variant, Pop.governs.faulty _ inner]
      · simp [ofJson?, variant, Ack.governs.faulty _ inner]
      · simp [ofJson?, variant, Renewal.governs.faulty _ inner]

end Operation

/-! ### Snapshots, receipts and queues -/

namespace CheckPoint

/-- The fields of a check point. -/
def cells (c : CheckPoint) : List Cell :=
  [.required "topic_id" .u64 u64 asU64 c.queue.topic,
    .required "queue_id" .u32 u32 asU32 c.queue.queue,
    .required "message_offset" .u64 u64 asU64 c.offset,
    .required "count" .u32 u32 asU32 c.count,
    .required "consumer_group_id" .u64 u64 asU64 c.group,
    .required "operation_id" .u64 u64 asU64 c.operation,
    .required "pop_type" .leaf PopKind.toJson PopKind.ofJson? c.kind,
    .required "delivery_timestamp" .u64 u64 asU64 c.delivered,
    .required "next_visible_timestamp" .u64 u64 asU64 c.nextVisible,
    .required "reconsume_count" .u32 u32 asU32 c.reconsume]

/-- The shape of a check point. -/
def shape : Shape := .record ((cells default).map Cell.toField)

theorem tabulated :
    Tabulated fieldNames ((cells default).map Cell.toField) cells toJson ofJson? where
  labels := rfl
  distinct := by decide
  same _ := rfl
  sound c := by
    simp [cells, governs_u64.required, governs_u32.required, PopKind.governs.required]
  writes _ := rfl
  refuses ms twice := by
    rw [ofJson?, Json.members, named_of_twice twice]
  reads ms c unique := by
    obtain ⟨⟨_, _⟩, _⟩ := c
    rw [ofJson?, Json.members, named_of_once unique]
    simp [fieldNames, cells, Cell.required, Option.bind_eq_some_iff]

theorem governs : Governs shape toJson ofJson? := tabulated.governs

end CheckPoint

namespace GroupImage

theorem governs_bytes : Governs (.list .u8) bytesToJson (asList asU8) := governs_u8.list

/-- The fields of the image of a group. -/
def cells (i : GroupImage) : List Cell :=
  [.required "consumer_group_id" .u64 u64 asU64 i.counters.group,
    .required "consume_offset" .u64 u64 asU64 i.counters.consume,
    .required "ack_offset" .u64 u64 asU64 i.counters.ack,
    .required "retry_consume_offset" .u64 u64 asU64 i.counters.retryConsume,
    .required "retry_ack_offset" .u64 u64 asU64 i.counters.retryAck,
    .required "ack_base_offset" .u64 u64 asU64 i.base,
    .required "ack_bitmap" (.list .u8) bytesToJson (asList asU8) i.bitmap,
    .required "retry_ack_base_offset" .u64 u64 asU64 i.retryBase,
    .required "retry_ack_bitmap" (.list .u8) bytesToJson (asList asU8) i.retryBitmap]

/-- The shape of the image of a group. -/
def shape : Shape := .record ((cells default).map Cell.toField)

theorem tabulated :
    Tabulated fieldNames ((cells default).map Cell.toField) cells toJson ofJson? where
  labels := rfl
  distinct := by decide
  same _ := rfl
  sound i := by
    simp [cells, governs_u64.required, governs_bytes.required]
  writes _ := rfl
  refuses ms twice := by
    rw [ofJson?, Json.members, named_of_twice twice]
  reads ms i unique := by
    obtain ⟨⟨_, _⟩, _⟩ := i
    rw [ofJson?, Json.members, named_of_once unique]
    simp [fieldNames, GroupCounters.fieldNames, GroupCounters.ofFields?, cells, Cell.required,
      Option.bind_eq_some_iff, and_assoc]

theorem governs : Governs shape toJson ofJson? := tabulated.governs

end GroupImage

namespace Snapshot

/-- The fields of a snapshot. -/
def cells (s : Snapshot) : List Cell :=
  [.optional "snapshot_end_offset" .u64 u64 asU64 s.cursor,
    .required "kv_snapshot_version" .u64 u64 asU64 s.storeVersion,
    .required "consumer_groups" (.list GroupImage.shape) (fun is => .arr (is.map GroupImage.toJson))
      (asList GroupImage.ofJson?) s.groups,
    .required "check_points" (.list CheckPoint.shape) (fun cs => .arr (cs.map CheckPoint.toJson))
      (asList CheckPoint.ofJson?) s.checkPoints]

/-- The shape of a snapshot. -/
def shape : Shape := .record ((cells default).map Cell.toField)

theorem tabulated :
    Tabulated fieldNames ((cells default).map Cell.toField) cells toJson ofJson? where
  labels := rfl
  distinct := by decide
  same _ := rfl
  sound s := by
    simp [cells, governs_u64.optional u64_ne_null, governs_u64.required,
      GroupImage.governs.list.required, CheckPoint.governs.list.required]
  writes s := by
    obtain ⟨_ | _, _, _, _⟩ := s <;> rfl
  refuses ms twice := by
    rw [ofJson?, Json.members, named_of_twice twice]
  reads ms s unique := by
    obtain ⟨_, _, _, _⟩ := s
    rw [ofJson?, Json.members, named_of_once unique]
    simp [fieldNames, cells, Cell.required, Option.bind_eq_some_iff, Cell.optional]

theorem governs : Governs shape toJson ofJson? := tabulated.governs

end Snapshot

namespace Receipt

/-- The fields of a receipt. -/
def cells (r : Receipt) : List Cell :=
  [.required "consumer_group_id" .u64 u64 asU64 r.group,
    .required "topic_id" .u64 u64 asU64 r.queue.topic,
    .required "queue_id" .u32 u32 asU32 r.queue.queue,
    .required "message_offset" .u64 u64 asU64 r.offset,
    .required "operation_id" .u64 u64 asU64 r.operation]

/-- The shape of a receipt. -/
def shape : Shape := .record ((cells default).map Cell.toField)

theorem tabulated :
    Tabulated fieldNames ((cells default).map Cell.toField) cells toJson ofJson? where
  labels := rfl
  distinct := by decide
  same _ := rfl
  sound r := by
    simp [cells, governs_u64.required, governs_u32.required]
  writes _ := rfl
  refuses ms twice := by
    rw [ofJson?, Json.members, named_of_twice twice]
  reads ms r unique := by
    obtain ⟨_, ⟨_, _⟩, _⟩ := r
    rw [ofJson?, Json.members, named_of_once unique]
    simp [fieldNames, cells, Cell.required, Option.bind_eq_some_iff]

theorem governs : Governs shape toJson ofJson? := tabulated.governs

end Receipt

namespace QueueId

/-- The fields of a queue. -/
def cells (q : QueueId) : List Cell :=
  [.required "topic_id" .u64 u64 asU64 q.topic,
    .required "queue_id" .u32 u32 asU32 q.queue]

/-- The shape of a queue. -/
def shape : Shape := .record ((cells default).map Cell.toField)

theorem tabulated :
    Tabulated fieldNames ((cells default).map Cell.toField) cells toJson ofJson? where
  labels := rfl
  distinct := by decide
  same _ := rfl
  sound q := by
    simp [cells, governs_u64.required, governs_u32.required]
  writes _ := rfl
  refuses ms twice := by
    rw [ofJson?, Json.members, named_of_twice twice]
  reads ms q unique := by
    obtain ⟨_, _⟩ := q
    rw [ofJson?, Json.members, named_of_once unique]
    simp [fieldNames, cells, Cell.required, Option.bind_eq_some_iff]

theorem governs : Governs shape toJson ofJson? := tabulated.governs

end QueueId

/-! ### Options -/

namespace Config

/-- The fields of the options. -/
def cells (c : Config) : List Cell :=
  [.defaulted "check_point_namespace" .leaf Json.str asStr standard.checkPoints c.checkPoints,
    .defaulted "timer_tag_namespace" .leaf Json.str asStr standard.timers c.timers,
    .defaulted "order_index_namespace" .leaf Json.str asStr standard.locks c.locks,
    .defaulted "ack_rebase_threshold" .u64 u64 asU64 standard.rebaseThreshold c.rebaseThreshold]

/-- The shape of the options. -/
def shape : Shape := .record ((cells default).map Cell.toField)

theorem tabulated :
    Tabulated fieldNames ((cells default).map Cell.toField) cells toJson ofJson? where
  labels := rfl
  distinct := by decide
  same _ := rfl
  sound c := by
    simp [cells, governs_u64.defaulted, governs_str.defaulted]
  writes _ := rfl
  refuses ms twice := by
    rw [ofJson?, partialMembers, named_of_twice twice]
  reads ms c unique := by
    obtain ⟨_, _, _, _⟩ := c
    rw [ofJson?, partialMembers, named_of_once unique]
    simp [fieldNames, cells, Cell.defaulted, Option.bind_eq_some_iff]

theorem governs : Governs shape toJson ofJson? := tabulated.governs

/-- The standard options with the named fields replaced. -/
def overlay (names : List String) (c : Config) : Config where
  checkPoints := if "check_point_namespace" ∈ names then c.checkPoints else standard.checkPoints
  timers := if "timer_tag_namespace" ∈ names then c.timers else standard.timers
  locks := if "order_index_namespace" ∈ names then c.locks else standard.locks
  rebaseThreshold :=
    if "ack_rebase_threshold" ∈ names then c.rebaseThreshold else standard.rebaseThreshold

/-- An object with some of the members replaces those fields. -/
theorem ofJson?_of_subset {c : Config} {ms given : List (String × Json)}
    (full : c.toJson = .obj ms) (sub : given ⊆ ms) (unique : (given.map Prod.fst).Nodup) :
    ofJson? (.obj given) = some (c.overlay (given.map Prod.fst)) := by
  obtain rfl := Json.obj.inj (full.symm.trans (tabulated.writes c))
  have distinct := tabulated.nodup_members c
  rw [tabulated.reads _ _ (once_of_nodup _ unique)]
  simp only [cells, List.forall_mem_cons, List.not_mem_nil, false_implies, implies_true, and_true]
  exact ⟨governs_str.defaulted_of_subset distinct sub rfl _,
    governs_str.defaulted_of_subset distinct sub rfl _,
    governs_str.defaulted_of_subset distinct sub rfl _,
    governs_u64.defaulted_of_subset distinct sub rfl _⟩

end Config

namespace Log

theorem Format.governs : Governs .leaf (fun f : Format => .str f.word) Format.ofOption? :=
  governs_leaf (fun _ => .str _) fun f => by cases f <;> decide

namespace Options

/-- The fields of the options. -/
def cells (o : Options) : List Cell :=
  [.defaulted "dir" .leaf Json.str asStr standard.dir o.dir,
    .optional "level" .leaf Json.str asStr o.level,
    .defaulted "log_format" .leaf (fun f => .str f.word) Format.ofOption? standard.format o.format,
    .defaulted "max_log_files" .u64 u64 asU64 standard.maxFiles o.maxFiles,
    .defaulted "append_stdout" .leaf Json.bool asBool standard.stdout o.stdout]

/-- The shape of the options. -/
def shape : Shape := .record ((cells default).map Cell.toField)

theorem tabulated :
    Tabulated fieldNames ((cells default).map Cell.toField) cells toJson ofJson? where
  labels := rfl
  distinct := by decide
  same _ := rfl
  sound o := by
    simp [cells, governs_u64.defaulted, governs_str.defaulted, governs_bool.defaulted,
      Format.governs.defaulted, governs_str.optional str_ne_null]
  writes o := by
    obtain ⟨_, _ | _, _, _, _⟩ := o <;> rfl
  refuses ms twice := by
    rw [ofJson?, partialMembers, named_of_twice twice]
  reads ms o unique := by
    obtain ⟨_, _, _, _, _⟩ := o
    rw [ofJson?, partialMembers, named_of_once unique]
    simp [fieldNames, cells, Cell.defaulted, Cell.optional, Option.bind_eq_some_iff,
      -Bool.exists_bool]

theorem governs : Governs shape toJson ofJson? := tabulated.governs

/-- The standard options with the named fields replaced. -/
def overlay (names : List String) (o : Options) : Options where
  dir := if "dir" ∈ names then o.dir else standard.dir
  level := if "level" ∈ names then o.level else standard.level
  format := if "log_format" ∈ names then o.format else standard.format
  maxFiles := if "max_log_files" ∈ names then o.maxFiles else standard.maxFiles
  stdout := if "append_stdout" ∈ names then o.stdout else standard.stdout

/-- An object with some of the members replaces those fields. -/
theorem ofJson?_of_subset {o : Options} {ms given : List (String × Json)}
    (full : o.toJson = .obj ms) (sub : given ⊆ ms) (unique : (given.map Prod.fst).Nodup) :
    ofJson? (.obj given) = some (o.overlay (given.map Prod.fst)) := by
  obtain rfl := Json.obj.inj (full.symm.trans (tabulated.writes o))
  have distinct := tabulated.nodup_members o
  rw [tabulated.reads _ _ (once_of_nodup _ unique)]
  simp only [cells, List.forall_mem_cons, List.not_mem_nil, false_implies, implies_true, and_true]
  exact ⟨governs_str.defaulted_of_subset distinct sub rfl _,
    governs_str.optional_of_subset str_ne_null distinct sub rfl,
    Format.governs.defaulted_of_subset distinct sub rfl _,
    governs_u64.defaulted_of_subset distinct sub rfl _,
    governs_bool.defaulted_of_subset distinct sub rfl _⟩

/-- The empty text as a format counts as none. -/
theorem ofJson?_emptyFormat {before after : List (String × Json)}
    (absent : List.lookup "log_format" (before ++ after) = none) :
    ofJson? (.obj (before ++ ("log_format", .str "") :: after)) =
      ofJson? (.obj (before ++ after)) := by
  have earlier : List.lookup "log_format" before = none := by
    rw [List.lookup_append] at absent
    exact (Option.or_eq_none_iff.1 absent).1
  have format : Json.defaulted Format.ofOption? standard.format (some (.str "")) =
      Json.defaulted Format.ofOption? standard.format none := rfl
  refine tabulated.read_congr (once_insert fun _ => absent) fun o => ?_
  simp [cells, Cell.defaulted, Cell.optional, lookup_middle, earlier, absent, format]

end Options

end Log

/-! ### The main statement -/

/-- **What JSON forms promise.** Operations, snapshots, receipts and queues are written in a known
shape and read back. A member that a record does not know, anywhere in a value, changes nothing; a
record without a field that it needs or with a field twice, or an integer out of its range, anywhere
in a value, has the value refused. The same holds of the options of ledgers and of logging, which
need none of their fields: an object with any of the members of some options, each once, is read as
the standard options with exactly those fields replaced, and a log format that is the empty text
counts as absent. -/
theorem json_forms :
    Governs Operation.shape Operation.toJson Operation.ofJson? ∧
      Governs Snapshot.shape Snapshot.toJson Snapshot.ofJson? ∧
      Governs Receipt.shape Receipt.toJson Receipt.ofJson? ∧
      Governs QueueId.shape QueueId.toJson QueueId.ofJson? ∧
      Governs Config.shape Config.toJson Config.ofJson? ∧
      Governs Log.Options.shape Log.Options.toJson Log.Options.ofJson? ∧
      (∀ (c : Config) (ms given : List (String × Json)),
        c.toJson = .obj ms → given ⊆ ms → (given.map Prod.fst).Nodup →
          Config.ofJson? (.obj given) = some (c.overlay (given.map Prod.fst))) ∧
      (∀ (o : Log.Options) (ms given : List (String × Json)),
        o.toJson = .obj ms → given ⊆ ms → (given.map Prod.fst).Nodup →
          Log.Options.ofJson? (.obj given) = some (o.overlay (given.map Prod.fst))) ∧
      ∀ before after : List (String × Json), List.lookup "log_format" (before ++ after) = none →
        Log.Options.ofJson? (.obj (before ++ ("log_format", .str "") :: after)) =
          Log.Options.ofJson? (.obj (before ++ after)) :=
  ⟨Operation.governs, Snapshot.governs, Receipt.governs, QueueId.governs, Config.governs,
    Log.Options.governs, fun _ _ _ => Config.ofJson?_of_subset,
    fun _ _ _ => Log.Options.ofJson?_of_subset, fun _ _ => Log.Options.ofJson?_emptyFormat⟩

/-- A limit on the files and an empty format. -/
theorem json_forms_limit :
    [("max_log_files", u64 5)] ⊆
        [("dir", .str ""), ("level", .null), ("log_format", .str "text"), ("max_log_files", u64 5),
          ("append_stdout", .bool true)] ∧
      Log.Options.ofJson? (.obj [("log_format", .str ""), ("max_log_files", u64 5)]) =
        some { Log.Options.standard with maxFiles := 5 } := by
  have sub : [("max_log_files", u64 5)] ⊆
      [("dir", .str ""), ("level", .null), ("log_format", .str "text"), ("max_log_files", u64 5),
        ("append_stdout", .bool true)] := by simp
  obtain ⟨-, -, -, -, -, -, -, subset, empty⟩ := json_forms
  refine ⟨sub, ?_⟩
  rw [show [("log_format", Json.str ""), ("max_log_files", u64 5)] =
    [] ++ ("log_format", Json.str "") :: [("max_log_files", u64 5)] from rfl, empty _ _ rfl]
  exact subset { Log.Options.standard with maxFiles := 5 } _ _ rfl sub (List.nodup_singleton _)

end QueueLedger
