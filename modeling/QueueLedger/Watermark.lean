import QueueLedger.Bitmap.Portable
import QueueLedger.Failure
import QueueLedger.Offset
/-!
# Watermarks

Acknowledgments of one delivery path arrive out of order. A watermark collects them into a
low-water mark: the offset below which everything is acknowledged. Offsets acknowledged
above it wait as bits relative to a base.

Design points:

* The mark advances over every contiguous bit. Bits below it are never looked at again, so
  once the mark is `threshold` past the base, the bitmap is re-anchored at the mark
  (`rebase`). This keeps the indices inside 32 bits.
* An offset can be recorded if it lies less than `window` above the mark; a farther one is
  refused before anything changes (`checkWindow`).
* `commit` returns the next watermark with what happened on the way: where the mark
  advanced to, what the listener heard, how often the bitmap was re-anchored.
* Offsets are 64-bit words. Where a difference would be negative or the mark would pass the
  last word, `commit` fails with `outOfRange` and leaves the watermark as it was.
-/

namespace QueueLedger

/-- The acknowledgments of one delivery path. -/
structure Watermark where
  /-- The mark: every offset below it is acknowledged. -/
  ackOffset : UInt64
  /-- The offset that the index zero of the bitmap stands for. -/
  base : UInt64
  /-- The acknowledged offsets, relative to the base. -/
  bits : Bitmap
  /-- The distance of the mark from the base at which the bitmap is re-anchored. -/
  threshold : UInt64
  deriving Inhabited

namespace Watermark

/-- A watermark without pending acknowledgments, which starts at `ackOffset`. -/
def start (ackOffset threshold : UInt64) : Watermark := ⟨ackOffset, ackOffset, ∅, threshold⟩

/-- The number of offsets from the mark on that can be recorded. -/
def window : Nat := UInt32.size

/-- The index of an offset in the bitmap, if it is not below the base. -/
def index? (w : Watermark) (offset : UInt64) : Option Nat :=
  if w.base ≤ offset then some (offset.toNat - w.base.toNat) else none

/-- Whether an offset is acknowledged: below the mark, or by its bit. -/
def isAcked (w : Watermark) (offset : UInt64) : Bool :=
  decide (offset < w.ackOffset) || (w.index? offset).any w.bits.has

/-- The number of bits in the bitmap. -/
def pending (w : Watermark) : Nat := w.bits.size

/-- Whether an offset can be recorded, or needs no record because it lies below the mark. -/
def inWindow (w : Watermark) (offset : UInt64) : Bool :=
  decide (offset.toNat < w.ackOffset.toNat + window)

/-- Refuses an offset outside the window. -/
def checkWindow (w : Watermark) (offset : UInt64) : Except Failure Unit :=
  if w.inWindow offset then .ok () else .error (.ackWindowOverflow offset w.ackOffset)

/-- The first offset of a batch that cannot be recorded. -/
def firstOutside (w : Watermark) (b : Batch) : Option UInt64 :=
  if w.inWindow b.last then none
  else some (UInt64.ofNat (max b.first.toNat (w.ackOffset.toNat + window)))

/-- The watermark with its bitmap re-anchored at the mark. -/
def rebase (w : Watermark) : Watermark :=
  { w with base := w.ackOffset, bits := w.bits.dropBelow (w.ackOffset.toNat - w.base.toNat) }

/-- The outcome of a recorded acknowledgment. -/
structure Commit where
  /-- The watermark afterwards. -/
  next : Watermark
  /-- The mark, if it advanced. -/
  advanced : Option UInt64
  /-- The values that the listener was called with. -/
  heard : List UInt64
  /-- How often the bitmap was re-anchored. -/
  rebases : Nat

/-- The watermark before an acknowledgment is recorded: re-anchored if the offset has no
32-bit index relative to the base. The number counts the re-anchoring. -/
def anchored (w : Watermark) (offset : UInt64) : Watermark × Nat :=
  if offset.toNat - w.base.toNat < Bitmap.range then (w, 0) else (w.rebase, 1)

/-- The watermark with the bit of an offset set. -/
def record (w : Watermark) (offset : UInt64) : Watermark :=
  { w with bits := w.bits.insert (UInt32.ofNat (offset.toNat - w.base.toNat)) }

/-- The offset that the mark moves to: past every contiguous bit. -/
def target (w : Watermark) : Nat :=
  w.base.toNat + w.bits.firstGap (w.ackOffset.toNat - w.base.toNat)

/-- The outcome after the mark has moved to `mark`, which it does if that is not where it was.
The bitmap is re-anchored when the mark has left the base far enough behind. -/
def settle (w : Watermark) (mark : UInt64) (rebases : Nat) : Commit :=
  if mark = w.ackOffset then ⟨w, none, [], rebases⟩
  else
    let moved := { w with ackOffset := mark }
    if w.threshold ≤ mark - w.base then ⟨moved.rebase, some mark, [mark], rebases + 1⟩
    else ⟨moved, some mark, [mark], rebases⟩

/-- Records the acknowledgment of an offset. One below the mark changes nothing. -/
def commit (w : Watermark) (offset : UInt64) : Except Failure Commit :=
  if offset < w.ackOffset then .ok ⟨w, none, [], 0⟩
  else if w.inWindow offset then
    if w.base ≤ offset then
      let (w', rebases) := w.anchored offset
      let recorded := w'.record offset
      if recorded.base ≤ recorded.ackOffset ∧ recorded.target < UInt64.size then
        .ok (recorded.settle (UInt64.ofNat recorded.target) rebases)
      else .error .outOfRange
    else .error .outOfRange
  else .error (.ackWindowOverflow offset w.ackOffset)

/-- The bytes of the bitmap. -/
def bitmapBytes (w : Watermark) : Bytes := w.bits.encode

/-- The watermark with a given mark and base, whose bitmap is read from bytes. -/
def restore (ackOffset base : UInt64) (bytes : Bytes) (threshold : UInt64) :
    Except Failure Watermark :=
  match Bitmap.decode? bytes with
  | some bits => .ok ⟨ackOffset, base, bits, threshold⟩
  | none => .error (.bitmap "malformed bitmap")

/-- The printed form. The bitmap shows only its size. -/
def describe (w : Watermark) : String :=
  "AckCommitter \x7b ack_offset: " ++ toString w.ackOffset ++ ", base_offset: " ++
    toString w.base ++ ", pending: " ++ toString w.pending ++ ", rebase_threshold: " ++
    toString w.threshold ++ ", .. \x7d"

theorem commit_of_lt {w : Watermark} {offset : UInt64} (h : offset < w.ackOffset) :
    w.commit offset = .ok ⟨w, none, [], 0⟩ := by
  simp [commit, h]

/-- An offset outside the window is refused as `checkWindow` says. -/
theorem commit_of_not_inWindow {w : Watermark} {offset : UInt64}
    (h : w.inWindow offset = false) :
    w.commit offset = .error (.ackWindowOverflow offset w.ackOffset) := by
  have above : ¬ offset < w.ackOffset := by
    intro below
    have : offset.toNat < w.ackOffset.toNat := UInt64.lt_iff_toNat_lt.1 below
    simp [inWindow] at h
    omega
  simp [commit, above, h]

/-- Looking at the ends of a batch finds the offset that looking at each of them would find. -/
theorem firstOutside_eq (w : Watermark) (b : Batch) :
    w.firstOutside b = b.offsets.find? fun offset => !w.inWindow offset := by
  have hf := UInt64.le_iff_toNat_le.1 b.first_le_last
  have hl : b.last.toNat < UInt64.size := b.last.toNat_lt_size
  unfold Batch.offsets Batch.size inWindow
  rw [Batch.find?_run_not_lt _ _ _ (by omega), firstOutside]
  by_cases last : b.last.toNat < w.ackOffset.toNat + window
  · rw [if_pos (by simpa [inWindow] using last)]
    rw [if_pos (by omega)]
  · rw [if_neg (by simpa [inWindow] using last)]
    rw [if_neg (by omega)]

end Watermark

end QueueLedger
