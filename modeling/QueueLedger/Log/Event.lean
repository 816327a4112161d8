import QueueLedger.Json
import QueueLedger.Log.Filter
import QueueLedger.Text.Quoted
/-!
# Log events and their lines

An event is a message with fields, spoken by a target and possibly inside spans. It is
written as a line of text or as a JSON object.

Design points:

* A value knows how it is shown: a text is quoted in text lines, a rendered value is not,
  and both are strings in JSON.
* The fields that a logging facade adds about itself, whose names begin with `log.`, appear
  in JSON only.
* A line shows only the spans it is given; which spans a sink knows is for the sink to say.
-/

namespace QueueLedger.Log

/-- The value of a field. -/
inductive Value
  /-- A text. -/
  | text (s : String)
  /-- A value that was rendered before. -/
  | rendered (s : String)
  /-- A number. -/
  | number (n : Nat)
  /-- A truth value. -/
  | flag (b : Bool)
  deriving Repr, DecidableEq, Inhabited

namespace Value

/-- A 64-bit word. -/
def u64 (n : UInt64) : Value := number n.toNat

/-- A 32-bit word. -/
def u32 (n : UInt32) : Value := number n.toNat

/-- An optional number as it is rendered. -/
def option : Option UInt64 → Value
  | none => rendered "None"
  | some n => rendered ("Some(" ++ toString n ++ ")")

/-- The value in a text line. -/
def shown : Value → String
  | text s => Text.quote s
  | rendered s => s
  | number n => toString n
  | flag true => "true"
  | flag false => "false"

/-- The value in a JSON line. -/
def json : Value → Json
  | text s => .str s
  | rendered s => .str s
  | number n => .nat n
  | flag b => .bool b

end Value

/-- Named values. -/
abbrev Fields := List (String × Value)

/-- A span of time that events fall into. -/
structure Span where
  /-- The name of the span. -/
  name : String
  /-- The level at which the span is known. -/
  level : Level
  /-- The component that opened it. -/
  target : String
  /-- Its fields. -/
  fields : Fields
  deriving Repr, DecidableEq, Inhabited

/-- What a filter sees of a span. -/
def Span.callsite (s : Span) : Callsite := ⟨s.level, s.target, s.fields.map Prod.fst, false⟩

/-- A logged event. -/
structure Event where
  /-- The level. -/
  level : Level
  /-- The component that speaks. -/
  target : String
  /-- The names of all fields that the event may have. -/
  declared : List String
  /-- The message. -/
  message : String
  /-- The fields that have values. -/
  fields : Fields
  /-- The spans around the event, outermost first. -/
  spans : List Span
  deriving Repr, DecidableEq, Inhabited

namespace Event

/-- The name under which a message is declared and written. -/
def messageField : String := "message"

/-- An event all of whose declared fields have values. -/
def plain (level : Level) (target message : String) (fields : Fields) (spans : List Span) :
    Event :=
  ⟨level, target, messageField :: fields.map Prod.fst, message, fields, spans⟩

/-- The field in which a record from the facade keeps its target. -/
def facadeTarget : String := "log.target"

/-- A record from the logging facade. -/
def ofFacade (level : Level) (target message : String) : Event where
  level := level
  target := target
  declared := [messageField, facadeTarget, "log.module_path", "log.file", "log.line"]
  message := message
  fields := [(facadeTarget, .text target)]
  spans := []

/-- What a filter sees of the event. -/
def callsite (e : Event) : Callsite := ⟨e.level, e.target, e.declared, true⟩

end Event

/-- A written event. -/
inductive Line
  /-- A line of text. -/
  | text (s : String)
  /-- A JSON object. -/
  | object (j : Json)
  deriving Inhabited

namespace Line

/-- A field in a text line. -/
def field (name : String) (v : Value) : String := name ++ "=" ++ v.shown

/-- A span in a text line. -/
def span (s : Span) : String :=
  if s.fields.isEmpty then s.name ++ ":"
  else
    s.name ++ "\x7b" ++ " ".intercalate (s.fields.map fun (n, v) => field n v) ++ "\x7d:"

/-- The spans in front of a text line. -/
def spans : List Span → String
  | [] => ""
  | ss => "".intercalate (ss.map span) ++ " "

/-- Whether a field is shown in text lines. -/
def inText (name : String) : Bool := !("log.".toList.isPrefixOf name.toList)

/-- The text line of an event inside spans: its level, the spans, its target, the message
and the fields. -/
def ofText (e : Event) (ss : List Span) : String :=
  let fields := (e.fields.filter fun (n, _) => inText n).map fun (n, v) => field n v
  e.level.padded ++ " " ++ spans ss ++ e.target ++ ": " ++
    " ".intercalate (Text.sanitize e.message :: fields)

/-- A span in a JSON line. -/
def spanObject (s : Span) : Json :=
  .obj (("name", .str s.name) :: s.fields.map fun (n, v) => (n, v.json))

/-- The JSON line of an event inside spans. -/
def ofObject (e : Event) (ss : List Span) : Json :=
  let fields := (Event.messageField, Json.str e.message) :: e.fields.map fun (n, v) => (n, v.json)
  let around := match ss.getLast? with
    | none => []
    | some s => [("span", spanObject s), ("spans", .arr (ss.map spanObject))]
  .obj ([("level", .str e.level.label), ("fields", .obj fields), ("target", .str e.target)] ++
    around)

end Line

end QueueLedger.Log
