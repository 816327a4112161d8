/-!
# Byte strings

Keys, values and wire formats are lists of bytes, compared lexicographically by
`compare`: the order in which a store visits its keys.

Design points:

* `Bytes` is a plain list, so `++`, `take` and `drop` and their lemmas serve every
  format of the library.
* A `Reader` consumes bytes from the front and hands on the rest. It is `none` on
  short or malformed input, never partial, so a format is read by composing readers
  in field order.
-/

namespace QueueLedger

/-- A string of bytes. -/
abbrev Bytes := List UInt8

namespace Bytes

/-- The number of byte strings of a length, and so of the numbers that they write. -/
def capacity : Nat → Nat
  | 0 => 1
  | w + 1 => capacity w * 256

/-- Strict lexicographic order. -/
def before (a b : Bytes) : Bool := (compare a b).isLT

/-- `a` is at or before `b` in lexicographic order. -/
def upTo (a b : Bytes) : Bool := (compare a b).isLE

/-- The later of two byte strings, the first one on a tie. -/
def later (a b : Bytes) : Bytes := if a.before b then b else a

@[simp] theorem before_irrefl (a : Bytes) : a.before a = false := by
  simp [before]

theorem before_eq_not_upTo (a b : Bytes) : a.before b = !(b.upTo a) := by
  have swap : compare a b = (compare b a).swap := Std.OrientedCmp.eq_swap
  rw [before, upTo, swap]
  cases compare b a <;> rfl

end Bytes

/-- A reader takes a value off the front of the input, or refuses it. -/
abbrev Reader := StateT Bytes Option

namespace Reader

/-- The next `n` bytes. -/
def take (n : Nat) : Reader Bytes := fun b =>
  if b.length < n then none else some (b.take n, b.drop n)

/-- One byte. -/
def byte : Reader UInt8
  | [] => none
  | b :: rest => some (b, rest)

/-- A value checked after reading. -/
def accept {α β : Type} (check : α → Option β) (r : Reader α) : Reader β := fun b =>
  match r b with
  | some (a, rest) => (check a).map (·, rest)
  | none => none

/-- `n` values in a row, in order. -/
def times {α : Type} (r : Reader α) : Nat → Reader (List α)
  | 0, b => some ([], b)
  | n + 1, b =>
    match r b with
    | none => none
    | some (a, rest) =>
      match times r n rest with
      | none => none
      | some (as, rest') => some (a :: as, rest')

/-- Reading as many bytes as stand in front of `rest` gives them back. -/
theorem take_append (a rest : Bytes) : take a.length (a ++ rest) = some (a, rest) := by
  simp [take]

theorem take_of_length {n : Nat} {a : Bytes} (h : a.length = n) (rest : Bytes) :
    take n (a ++ rest) = some (a, rest) := by
  subst h; exact take_append a rest

end Reader

end QueueLedger
