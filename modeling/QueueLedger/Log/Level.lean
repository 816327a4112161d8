import QueueLedger.Text.Decimal
/-!
# Log levels

Events have one of five levels. A ceiling lets events through up to a level, or none at all.
-/

namespace QueueLedger.Log

/-- The importance of an event. -/
inductive Level
  /-- Something failed. -/
  | error
  /-- Something unexpected was handled. -/
  | warn
  /-- A notable step. -/
  | info
  /-- A detail for developers. -/
  | debug
  /-- Every single step. -/
  | trace
  deriving Repr, DecidableEq, Inhabited

namespace Level

/-- The place of a level, counted from the most important one. -/
def rank : Level → Nat
  | error => 1
  | warn => 2
  | info => 3
  | debug => 4
  | trace => 5

/-- The written form of a level. -/
def label : Level → String
  | error => "ERROR"
  | warn => "WARN"
  | info => "INFO"
  | debug => "DEBUG"
  | trace => "TRACE"

/-- Every level, most important first. -/
def all : List Level := [error, warn, info, debug, trace]

/-- The written form at the width of the longest one. -/
def padded (l : Level) : String :=
  String.ofList (List.replicate (5 - l.label.length) ' ') ++ l.label

end Level

/-- The least important level that passes, if any does. -/
abbrev Ceiling := Option Level

namespace Ceiling

/-- Whether events of a level pass. -/
def allows (c : Ceiling) (l : Level) : Bool := c.any fun top => decide (l.rank ≤ top.rank)

/-- The ceiling of a number: zero lets nothing pass, the next five are the levels. -/
def ofRank? : Nat → Option Ceiling
  | 0 => some none
  | n + 1 => (Level.all[n]?).map some

/-- The number that digits denote, with at most one plus sign before them. -/
def number? (s : String) : Option Nat :=
  match s.toList with
  | '+' :: digits => Text.decimal? digits
  | digits => Text.decimal? digits

/-- The ceiling that a word names, in any case. The empty word lets errors pass. -/
def ofWord? (s : String) : Option Ceiling :=
  if s = "" then some (some .error)
  else
    let word := String.ofList (s.toList.map Char.toLower)
    if word = "off" then some none
    else (Level.all.find? fun l => String.ofList (l.label.toList.map Char.toLower) == word).map some

/-- The ceiling that a text denotes: a number or a word. -/
def ofText? (s : String) : Option Ceiling :=
  match (number? s).bind ofRank? with
  | some c => some c
  | none => ofWord? s

end Ceiling

end QueueLedger.Log
