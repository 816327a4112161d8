import QueueLedger.Log.Level
import QueueLedger.Text.Pieces
/-!
# Log filters

A filter is a list of directives. Each says for some targets, and possibly only for events
that declare certain fields, up to which level events pass. The most specific directive that
applies decides; where none applies, nothing passes.

Design points:

* A directive applies to every target that begins with its own, so a filter for a component
  covers its parts.
* Directives are kept most specific first: longer targets before shorter ones, then more
  fields before fewer. A later directive replaces an earlier one for the same target and
  fields (`Filter.insert`).
* A text is cut at commas before anything else. Nothing is trimmed.
-/

namespace QueueLedger.Log

/-- One rule of a filter. -/
structure Directive where
  /-- What a target has to begin with; none applies to every target. -/
  target : Option String
  /-- The fields that an event has to declare. -/
  fields : List String
  /-- What passes. -/
  ceiling : Ceiling
  deriving Repr, DecidableEq, Inhabited

/-- What a filter looks at. -/
structure Callsite where
  /-- The level. -/
  level : Level
  /-- The component that speaks. -/
  target : String
  /-- The fields that are declared, whether they have values or not. -/
  declared : List String
  /-- Whether it is an event, and not a span around events. -/
  isEvent : Bool
  deriving Repr, DecidableEq, Inhabited

namespace Directive

/-- Whether the directive applies. The fields count for events only. -/
def applies (d : Directive) (c : Callsite) : Bool :=
  (d.target.all fun t => t.toList.isPrefixOf c.target.toList) &&
    (!c.isEvent || d.fields.all c.declared.contains)

/-- The order by specificity: by the length of the target, the number of fields, and then by
their texts. Directives for the same target and fields are equal in it. -/
def order : Directive → Directive → Ordering :=
  compareLex (compareOn fun d => d.target.map String.utf8ByteSize)
    (compareLex (compareOn fun d => d.fields.length)
      (compareLex (compareOn fun d => d.target) (compareOn fun d => d.fields)))

/-- Cuts every closing of a field list off the end of a reversed text. -/
def dropClosings : List Char → List Char
  | ']' :: '\x7d' :: rest => dropClosings rest
  | cs => cs

/-- The names in a field list, which has to end with its closing. -/
def fieldNames? (s : String) : Option (List String) :=
  match s.toList.reverse with
  | ']' :: '\x7d' :: rest =>
    let names := String.ofList (dropClosings rest).reverse
    some ((Text.pieces ',' names).filter (· ≠ ""))
  | _ => none

/-- The target and the fields before an equals sign. -/
def subject? (s : String) : Option (String × List String) :=
  match s.splitOn "[\x7b" with
  | [target] => some (target, [])
  | [target, fields] => (fieldNames? fields).map (target, ·)
  | _ => none

/-- The directive that a text denotes: a target and a level around an equals sign, a level
alone, or a target alone, for which everything passes. -/
def parse? (s : String) : Option Directive :=
  match Text.pieces '=' s with
  | [word] =>
    match Ceiling.ofText? word with
    | some ceiling => some ⟨none, [], ceiling⟩
    | none => some ⟨some word, [], some .trace⟩
  | [subject, level] =>
    match subject? subject, Ceiling.ofText? level with
    | some (target, fields), some ceiling => some ⟨some target, fields, ceiling⟩
    | _, _ => none
  | _ => none

end Directive

/-- Directives, most specific first. -/
abbrev Filter := List Directive

namespace Filter

/-- Adds a directive in the place of its specificity, or replaces its equal. -/
def insert (d : Directive) : Filter → Filter
  | [] => [d]
  | e :: rest =>
    match Directive.order d e with
    | .gt => d :: e :: rest
    | .eq => d :: rest
    | .lt => e :: insert d rest

/-- The filter of directives that are given one after the other. -/
def ofDirectives (ds : List Directive) : Filter := ds.foldl (fun f d => insert d f) []

/-- The filter that a text denotes. -/
def parse? (s : String) : Option Filter :=
  ((Text.pieces ',' s).mapM Directive.parse?).map ofDirectives

/-- Whether an event or a span passes. -/
def enables (f : Filter) (c : Callsite) : Bool :=
  match f.find? (·.applies c) with
  | some d => d.ceiling.allows c.level
  | none => false

end Filter

end QueueLedger.Log
