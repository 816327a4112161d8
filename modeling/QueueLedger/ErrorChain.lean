import QueueLedger.Status
/-!
# Chains of layered errors

An error is a chain of layers, outermost first. Each layer has its own text and status, and
may have a chain of plain source errors below it. This module says which of these texts a
reader gets to see.

Design points:

* A chain is its outermost layer and the list of the layers below, so it is never empty.
* Transparency is the layer's own answer and has nothing to do with its status. The status
  matters on the outermost layer only.
* A shared or boxed layer (`Wrap`) shows its inner text and sources, but is never
  transparent itself.
* There are three walks: down the layers (`ErrorChain.last`), down the sources of the layer
  where that ends (`Layer.root`), and over all layers with a number (`ErrorChain.stack`). The
  first two follow a chain element by element to its end (`ErrorChain.follow`).
* `output`, `rootCause` and `stack` are made of these walks; none of them looks at the wrapping
  except through `Layer.shown`.
-/

namespace QueueLedger

/-- Follows a chain to its end: from one element, through those below it. -/
def ErrorChain.follow {α : Type} : α → List α → α
  | a, [] => a
  | _, b :: below => follow b below

/-- How a layer is held by the layer above it. -/
inductive Wrap
  /-- The layer itself. -/
  | bare
  /-- A shared pointer to the layer. -/
  | shared
  /-- An owning pointer to the layer. -/
  | boxed
  deriving Repr, DecidableEq, Inhabited

/-- One layer of an error. What a kind of layer does not say for itself has a default. -/
structure Layer where
  /-- What the layer says of itself. -/
  text : String
  /-- The class of the layer. -/
  status : Status := .unknown
  /-- Whether the layer hides its text behind its source. -/
  transparent : Bool := false
  /-- The texts of the plain errors below the layer, its direct source first. -/
  sources : List String := []
  /-- How the layer is held. -/
  wrap : Wrap := .bare
  deriving Repr, DecidableEq, Inhabited

namespace Layer

/-- A layer that is held as itself and hides nothing. -/
def bare (text : String) (status : Status) (sources : List String) : Layer where
  text := text
  status := status
  sources := sources

/-- The transparency that a reader of the chain sees: a pointer answers for itself, with
the default. -/
def shown (l : Layer) : Bool :=
  match l.wrap with
  | .bare => l.transparent
  | .shared | .boxed => false

/-- The end of the layer's source chain, if it has one. -/
def root (l : Layer) : Option String :=
  match l.sources with
  | [] => none
  | source :: below => some (ErrorChain.follow source below)

/-- What the layer tells the outside: its own text, then the end of its source chain,
which stands alone when the layer is transparent. -/
def report (l : Layer) : String :=
  match l.root with
  | none => l.text
  | some r => if l.shown then r else l.text ++ ": " ++ r

end Layer

/-- An error: its outermost layer and the layers below it. -/
structure ErrorChain where
  /-- The outermost layer. -/
  outer : Layer
  /-- The layers below, in order. -/
  inner : List Layer
  deriving Repr, DecidableEq, Inhabited

namespace ErrorChain

/-- Every layer, outermost first. -/
def layers (c : ErrorChain) : List Layer := c.outer :: c.inner

/-- The layer where the way down ends. -/
def last (c : ErrorChain) : Layer := follow c.outer c.inner

/-- The status of the outermost layer. -/
def status (c : ErrorChain) : Status := c.outer.status

/-- The end of the deepest layer's source chain. -/
def rootCause (c : ErrorChain) : Option String := c.last.root

/-- The message for the outside. An internal or unclassified error shows only its code,
any other one what its deepest layer reports. -/
def output (c : ErrorChain) : String :=
  if c.status.concealed then "Internal error: " ++ c.status.text else c.last.report

/-- Numbered lines, one a layer, starting at `n`. -/
def numbered : Nat → List String → List String
  | _, [] => []
  | n, t :: ts => (toString n ++ ": " ++ t) :: numbered (n + 1) ts

/-- The stack of an error, one numbered line a layer. -/
def stack (c : ErrorChain) : List String := numbered 0 (c.layers.map (·.text))

/-- The stack as one text. -/
def stackText (c : ErrorChain) : String := "\n".intercalate c.stack

/-- An error of one layer. -/
def single (l : Layer) : ErrorChain := ⟨l, []⟩

@[simp] theorem length_numbered (n : Nat) (ts : List String) :
    (numbered n ts).length = ts.length := by
  induction ts generalizing n with
  | nil => rfl
  | cons t ts ih => simp [numbered, ih]

/-- An error has one stack line a layer. -/
theorem length_stack (c : ErrorChain) : c.stack.length = c.layers.length := by
  simp [stack]

end ErrorChain

end QueueLedger
