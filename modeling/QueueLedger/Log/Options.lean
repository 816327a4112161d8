import QueueLedger.Json
/-!
# Logging options

Where log lines go, which of them, and in which form. Every field of the JSON form may be
missing.

Design points:

* A format is written in lowercase. In options the empty text stands for the standard
  format, as configuration files tend to carry it; elsewhere it is refused.
* Only the level may be null.
-/

namespace QueueLedger.Log

/-- The form of log lines. -/
inductive Format
  /-- One JSON object a line. -/
  | json
  /-- Text for readers. -/
  | text
  deriving Repr, DecidableEq

namespace Format

instance : Inhabited Format := ⟨text⟩

/-- The written form. -/
def word : Format → String
  | json => "json"
  | text => "text"

/-- The name shown to people. -/
def name : Format → String
  | json => "Json"
  | text => "Text"

/-- The format that a word denotes. -/
def ofWord? (s : String) : Option Format :=
  if s = "json" then some json else if s = "text" then some text else none

/-- The format that a JSON value denotes. -/
def ofJson? (j : Json) : Option Format := j.unitVariant.bind ofWord?

/-- The format that a text in options denotes, where the empty text is the standard one. -/
def ofOption? (j : Json) : Option Format :=
  j.asStr.bind fun s => if s = "" then some text else ofWord? s

end Format

/-- The options of the logging system. -/
structure Options where
  /-- The directory of the log files; none are written if it is empty. -/
  dir : String
  /-- The filter, unless the environment is to say. -/
  level : Option String
  /-- The form of the lines. -/
  format : Format
  /-- How many log files of one name are kept; all of them if zero. -/
  maxFiles : UInt64
  /-- Whether lines are also written to the standard output. -/
  stdout : Bool
  deriving Repr, DecidableEq

namespace Options

/-- The options that apply when nothing else is said. -/
def standard : Options := ⟨"", none, .text, 720, true⟩

instance : Inhabited Options := ⟨standard⟩

/-- The names of the fields. -/
def fieldNames : List String := ["dir", "level", "log_format", "max_log_files", "append_stdout"]

/-- The JSON form. -/
def toJson (o : Options) : Json :=
  .obj [("dir", .str o.dir), ("level", .str? o.level), ("log_format", .str o.format.word),
    ("max_log_files", .u64 o.maxFiles), ("append_stdout", .bool o.stdout)]

/-- Reads the JSON form. -/
def ofJson? (j : Json) : Option Options :=
  match j.partialMembers fieldNames with
  | some [dir, level, format, maxFiles, stdout] => do
    let dir ← Json.defaulted Json.asStr standard.dir dir
    let level ← Json.optional Json.asStr level
    let format ← Json.defaulted Format.ofOption? standard.format format
    let maxFiles ← Json.defaulted Json.asU64 standard.maxFiles maxFiles
    let stdout ← Json.defaulted Json.asBool standard.stdout stdout
    pure ⟨dir, level, format, maxFiles, stdout⟩
  | _ => none

end Options

end QueueLedger.Log
