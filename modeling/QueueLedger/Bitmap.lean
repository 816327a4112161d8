import Std.Data.ExtTreeSet.Lemmas
/-!
# Bitmaps

A bitmap is a set of 32-bit indices. It is held as an ordered tree, and two bitmaps are
equal exactly when they hold the same indices (`Bitmap.ext`).

Design points:

* `firstGap` looks for the least index from a start that is not in the set. Its fuel is the
  number of indices left above the start, so it runs out only at the end of the index
  range.
* `dropBelow` re-anchors a bitmap: indices below the shift are dropped, the others move
  down by it.
-/

namespace QueueLedger

/-- A set of 32-bit indices. -/
abbrev Bitmap := Std.ExtTreeSet UInt32

namespace Bitmap

/-- The number of indices there are. -/
def range : Nat := UInt32.size

theorem ext {a b : Bitmap} (h : ∀ i, i ∈ a ↔ i ∈ b) : a = b := Std.ExtTreeSet.ext_mem h

/-- Whether a number is an index in the set. -/
def has (b : Bitmap) (n : Nat) : Bool := decide (n < range) && b.contains (UInt32.ofNat n)

/-- The least number from `n` on, within `fuel` steps, that is not an index in the set. -/
def gapWithin (b : Bitmap) : Nat → Nat → Nat
  | 0, n => n
  | fuel + 1, n => if b.has n then gapWithin b fuel (n + 1) else n

/-- The least number from `n` on that is not an index in the set. -/
def firstGap (b : Bitmap) (n : Nat) : Nat := b.gapWithin (range - n) n

/-- The set with the indices below `shift` dropped and the others lowered by it. -/
def dropBelow (b : Bitmap) (shift : Nat) : Bitmap :=
  Std.ExtTreeSet.ofList (b.toList.filterMap fun i =>
    if shift ≤ i.toNat then some (UInt32.ofNat (i.toNat - shift)) else none)

theorem has_of_not_lt {b : Bitmap} {n : Nat} (h : ¬ n < range) : b.has n = false := by
  simp [has, h]

theorem le_gapWithin (b : Bitmap) (fuel n : Nat) : n ≤ b.gapWithin fuel n := by
  induction fuel generalizing n with
  | zero => exact Nat.le_refl n
  | succ fuel ih =>
    rw [gapWithin]
    split
    · exact Nat.le_trans (Nat.le_succ n) (ih (n + 1))
    · exact Nat.le_refl n

theorem le_firstGap (b : Bitmap) (n : Nat) : n ≤ b.firstGap n := le_gapWithin b _ n

theorem has_of_lt_gapWithin (b : Bitmap) (fuel n m : Nat) (hm : n ≤ m)
    (h : m < b.gapWithin fuel n) : b.has m = true := by
  induction fuel generalizing n with
  | zero => exact absurd h (Nat.not_lt.2 hm)
  | succ fuel ih =>
    rw [gapWithin] at h
    split at h
    next hit =>
      rcases Nat.eq_or_lt_of_le hm with rfl | hm
      · exact hit
      · exact ih (n + 1) hm h
    next => exact absurd h (Nat.not_lt.2 hm)

/-- Every number between the start and the gap is an index in the set. -/
theorem has_of_lt_firstGap {b : Bitmap} {n m : Nat} (hm : n ≤ m) (h : m < b.firstGap n) :
    b.has m = true :=
  has_of_lt_gapWithin b _ n m hm h

theorem gapWithin_not_has (b : Bitmap) (fuel n : Nat) (h : range ≤ n + fuel) :
    b.has (b.gapWithin fuel n) = false := by
  induction fuel generalizing n with
  | zero => exact has_of_not_lt (by rw [gapWithin]; omega)
  | succ fuel ih =>
    rw [gapWithin]
    split
    · exact ih (n + 1) (by omega)
    next miss => simpa using miss

/-- The gap is not an index in the set. -/
theorem firstGap_not_has (b : Bitmap) (n : Nat) : b.has (b.firstGap n) = false :=
  gapWithin_not_has b _ n (by omega)

/-- What a re-anchored bitmap holds. -/
theorem mem_dropBelow {b : Bitmap} {shift : Nat} {j : UInt32} :
    j ∈ b.dropBelow shift ↔ ∃ i ∈ b, i.toNat = j.toNat + shift := by
  simp only [dropBelow, Std.ExtTreeSet.mem_ofList, List.contains_iff_mem, List.mem_filterMap,
    Std.ExtTreeSet.mem_toList]
  constructor
  · rintro ⟨i, hi, h⟩
    split at h
    next hs =>
      cases h
      refine ⟨i, hi, ?_⟩
      have := i.toNat_lt
      rw [UInt32.toNat_ofNat', Nat.mod_eq_of_lt (by omega)]
      omega
    next => cases h
  · rintro ⟨i, hi, h⟩
    refine ⟨i, hi, ?_⟩
    rw [if_pos (by omega), h, Nat.add_sub_cancel]
    simp

end Bitmap

end QueueLedger
