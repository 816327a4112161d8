/-!
# Offsets and batches

A message offset is a 64-bit word. Arithmetic that would leave the range saturates, and a
batch of messages is the run of offsets that ends at its last one.

Design points:

* `Batch` carries its invariant: the first offset is not above the last.
* A batch can be as long as a 32-bit count says. `visit` goes through it without building the
  list of its offsets; `visit_eq` says that it means the list.
-/

namespace QueueLedger

/-- The sum, or the largest offset where the sum is larger. -/
def satAdd (a b : UInt64) : UInt64 :=
  if a.toNat + b.toNat < UInt64.size then a + b else 0xffffffffffffffff

/-- The difference, or zero where it would be negative. -/
def satSub (a b : UInt64) : UInt64 := if b ≤ a then a - b else 0

theorem toNat_satAdd (a b : UInt64) :
    (satAdd a b).toNat = min (a.toNat + b.toNat) (UInt64.size - 1) := by
  unfold satAdd
  split
  next h => rw [UInt64.toNat_add, Nat.mod_eq_of_lt h]; omega
  next h =>
    have : (0xffffffffffffffff : UInt64).toNat = UInt64.size - 1 := rfl
    omega

theorem toNat_satSub (a b : UInt64) : (satSub a b).toNat = a.toNat - b.toNat := by
  unfold satSub
  split
  next h => rw [UInt64.toNat_sub_of_le _ _ h]
  next h =>
    have h : ¬ b.toNat ≤ a.toNat := fun h' => h (UInt64.le_iff_toNat_le.2 h')
    have : (0 : UInt64).toNat = 0 := rfl
    omega

theorem satSub_le (a b : UInt64) : satSub a b ≤ a := by
  rw [UInt64.le_iff_toNat_le, toNat_satSub]; omega

/-- A run of offsets, both ends included. -/
structure Batch where
  /-- The lowest offset. -/
  first : UInt64
  /-- The highest offset. -/
  last : UInt64
  /-- A batch holds at least one offset. -/
  first_le_last : first ≤ last
  deriving Repr, DecidableEq

namespace Batch

/-- The batch of `count` offsets that ends at `last`. A count of zero stands for one, and a
batch that would begin below zero begins at zero. -/
def ending (last : UInt64) (count : UInt32) : Batch :=
  ⟨satSub last (max count 1 - 1).toUInt64, last, satSub_le _ _⟩

/-- The number of offsets. -/
def size (b : Batch) : Nat := b.last.toNat - b.first.toNat + 1

/-- `k` offsets in ascending order, from `n` on. -/
def run (n k : Nat) : List UInt64 := (List.range' n k).map UInt64.ofNat

/-- The offsets in ascending order. -/
def offsets (b : Batch) : List UInt64 := run b.first.toNat b.size

/-- The first `k` offsets, or all of them if there are fewer. -/
def firstOffsets (b : Batch) (k : Nat) : List UInt64 := run b.first.toNat (min k b.size)

/-- Runs an action on `k` offsets from `n` on. -/
@[specialize] def visitFrom {m : Type → Type} [Monad m] (f : UInt64 → m Unit) : Nat → Nat → m Unit
  | _, 0 => pure ()
  | n, k + 1 => do
    f (UInt64.ofNat n)
    visitFrom f (n + 1) k

/-- Runs an action on every offset, in ascending order. -/
@[specialize] def visit {m : Type → Type} [Monad m] (b : Batch) (f : UInt64 → m Unit) : m Unit :=
  visitFrom f b.first.toNat b.size

@[simp] theorem run_zero (n : Nat) : run n 0 = [] := rfl

@[simp] theorem run_succ (n k : Nat) : run n (k + 1) = UInt64.ofNat n :: run (n + 1) k := by
  simp [run, List.range'_succ]

/-- The first offset of a run that is not below a limit. -/
theorem find?_run_not_lt (limit n k : Nat) (h : n + k ≤ UInt64.size) :
    (run n k).find? (fun o => !decide (o.toNat < limit)) =
      if n + k ≤ max n limit then none else some (UInt64.ofNat (max n limit)) := by
  induction k generalizing n with
  | zero => rw [Nat.add_zero, if_pos (Nat.le_max_left n limit), run_zero, List.find?_nil]
  | succ k ih =>
    have hn : (UInt64.ofNat n).toNat = n := by
      rw [UInt64.toNat_ofNat']
      exact Nat.mod_eq_of_lt (Nat.lt_of_lt_of_le (by omega) h)
    rw [run_succ, List.find?_cons, hn]
    by_cases below : n < limit
    · have hmax : max (n + 1) limit = max n limit := by omega
      simp only [below, decide_true, Bool.not_true]
      rw [ih (n + 1) (by omega), hmax, show n + 1 + k = n + (k + 1) by omega]
    · have hmax : max n limit = n := by omega
      simp [below, hmax]

theorem visitFrom_eq {m : Type → Type} [Monad m] (f : UInt64 → m Unit) (n k : Nat) :
    visitFrom f n k = (run n k).forM f := by
  induction k generalizing n with
  | zero => rfl
  | succ k ih => rw [visitFrom, run_succ, ih]; rfl

/-- Visiting a batch is running through its list of offsets. -/
theorem visit_eq {m : Type → Type} [Monad m] (b : Batch) (f : UInt64 → m Unit) :
    b.visit f = b.offsets.forM f :=
  visitFrom_eq f _ _

/-- The offsets of a batch are those between its ends. -/
theorem mem_offsets {b : Batch} {o : UInt64} : o ∈ b.offsets ↔ b.first ≤ o ∧ o ≤ b.last := by
  have hfl := UInt64.le_iff_toNat_le.1 b.first_le_last
  have hl := b.last.toNat_lt
  simp only [offsets, run, size, List.mem_map, List.mem_range'_1, UInt64.le_iff_toNat_le]
  constructor
  · rintro ⟨n, ⟨hn, hn'⟩, rfl⟩
    have : (UInt64.ofNat n).toNat = n := by
      rw [UInt64.toNat_ofNat', Nat.mod_eq_of_lt (by omega)]
    omega
  · rintro ⟨h, h'⟩
    exact ⟨o.toNat, ⟨by omega, by omega⟩, by simp⟩

end Batch

end QueueLedger
