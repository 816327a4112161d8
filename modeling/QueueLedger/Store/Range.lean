import QueueLedger.Store
/-!
# Visiting rows

A range bounds a visit of a namespace from below, from above and by leading bytes, in any
combination. A visitor is called on one row after the other and may stop the visit.

Design points:

* `Range.holds` says which keys a range means. `Range.select` finds them in an ascending
  list without testing every key: it skips to the later of the two lower bounds and stops
  at the first key that is past the upper bound or has other leading bytes.
* `walk` folds a visitor over rows and stops when told to.
-/

namespace QueueLedger

/-- Bounds of a visit. -/
structure Range where
  /-- The leading bytes that a key must have. -/
  stem : Option Bytes
  /-- The lowest key. -/
  start : Option Bytes
  /-- The key before which the visit ends. -/
  stop : Option Bytes
  deriving Repr, DecidableEq, Inhabited

namespace Range

/-- The range of all keys with given leading bytes. -/
def under (stem : Bytes) : Range := ⟨some stem, none, none⟩

/-- The range of all keys before a given one. -/
def upTo (stop : Bytes) : Range := ⟨none, none, some stop⟩

/-- Whether a key has the leading bytes of the range. -/
def inStem (r : Range) (key : Bytes) : Bool := r.stem.all fun stem => stem.isPrefixOf key

/-- Whether a key lies before the end of the range. -/
def beforeStop (r : Range) (key : Bytes) : Bool := r.stop.all fun stop => key.before stop

/-- Whether a key is not below the start of the range. -/
def fromStart (r : Range) (key : Bytes) : Bool := r.start.all fun start => start.upTo key

/-- Whether a key lies in the range. -/
def holds (r : Range) (key : Bytes) : Bool :=
  r.fromStart key && r.beforeStop key && r.inStem key

/-- The key from which the range is looked for: the later of its start and its leading
bytes. -/
def lower (r : Range) : Option Bytes :=
  match r.start, r.stem with
  | some start, some stem => some (start.later stem)
  | some start, none => some start
  | none, stem => stem

/-- Whether a key lies below the one from which the range is looked for. -/
def below (r : Range) (key : Bytes) : Bool := r.lower.any fun lower => key.before lower

/-- The rows of an ascending list whose keys lie in the range. -/
def select (r : Range) (rows : List (Bytes × Bytes)) : List (Bytes × Bytes) :=
  (rows.dropWhile fun row => r.below row.1).takeWhile fun row =>
    r.beforeStop row.1 && r.inStem row.1

end Range

/-- What a visitor says after a row. -/
inductive Visit (σ : Type)
  /-- Go on. -/
  | more (state : σ)
  /-- Stop here. -/
  | enough (state : σ)

/-- Calls a visitor on one row after the other until it stops. -/
def walk {σ : Type} (visitor : σ → Bytes → Bytes → Visit σ) : σ → List (Bytes × Bytes) → σ
  | s, [] => s
  | s, (key, value) :: rest =>
    match visitor s key value with
    | .more s' => walk visitor s' rest
    | .enough s' => s'

/-- The rows that a visitor is called on: all of them, or those up to the one where it
stops. -/
def visited {σ : Type} (visitor : σ → Bytes → Bytes → Visit σ) :
    σ → List (Bytes × Bytes) → List (Bytes × Bytes)
  | _, [] => []
  | s, (key, value) :: rest =>
    match visitor s key value with
    | .more s' => (key, value) :: visited visitor s' rest
    | .enough _ => [(key, value)]

/-- The visitor that collects every row. -/
def collectAll (s : Array (Bytes × Bytes)) (key value : Bytes) : Visit (Array (Bytes × Bytes)) :=
  .more (s.push (key, value))

/-- The visitor that collects rows and stops when it has `limit` of them. -/
def collectUpTo (limit : Nat) (s : Array (Bytes × Bytes)) (key value : Bytes) :
    Visit (Array (Bytes × Bytes)) :=
  let s' := s.push (key, value)
  if limit ≤ s'.size then .enough s' else .more s'

/-- Collecting every row collects the rows. -/
theorem toList_walk_collectAll (s : Array (Bytes × Bytes)) (rows : List (Bytes × Bytes)) :
    (walk collectAll s rows).toList = s.toList ++ rows := by
  induction rows generalizing s with
  | nil => simp [walk]
  | cons row rows ih =>
    obtain ⟨k, v⟩ := row
    simp [walk, collectAll, ih]

/-- Collecting up to a positive number of rows collects the first of them. -/
theorem toList_walk_collectUpTo {limit : Nat} (s : Array (Bytes × Bytes))
    (rows : List (Bytes × Bytes)) (h : s.size < limit) :
    (walk (collectUpTo limit) s rows).toList = s.toList ++ rows.take (limit - s.size) := by
  induction rows generalizing s with
  | nil => simp [walk]
  | cons row rows ih =>
    obtain ⟨k, v⟩ := row
    by_cases last : limit ≤ s.size + 1
    · have : limit - s.size = 1 := by omega
      simp [walk, collectUpTo, last, this]
    · have : limit - s.size = limit - (s.size + 1) + 1 := by omega
      simp [walk, collectUpTo, last, this, ih (s.push (k, v)) (by simp; omega)]

namespace Store

/-- Calls a visitor on the rows of a namespace in a range, in ascending order of keys. -/
def iterate {σ : Type} (s : Store) (space : String) (range : Range)
    (visitor : σ → Bytes → Bytes → Visit σ) (init : σ) : σ :=
  walk visitor init (range.select (s.rows.inSpace space))

end Store

end QueueLedger
