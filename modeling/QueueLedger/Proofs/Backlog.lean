import Mathlib.Order.Interval.Set.Nat
import QueueLedger.Proofs.AcknowledgedSet
/-!
# The backlog of a watermark

The offsets that are acknowledged and not yet passed by the ack offset are its backlog. The bitmap
holds their bits, and until it is re-anchored also those that the ack offset has passed since. So
the number of bits (`Watermark.pending`) is the backlog and what lies between the base and the ack
offset (`Watermark.attempts_pending`).

## Proof shape

That the count has no other part is the invariant `Watermark.Packed`: every offset from the base to
the ack offset still has its bit, and the ack offset is at the base or less than the threshold past
it. The steps of a commit keep it one by one: making room, setting a bit, and moving the ack offset
to the target.
-/

namespace QueueLedger

/-- A bitmap has as many bits as there are numbers that it holds. -/
theorem Bitmap.size_eq_ncard (b : Bitmap) : b.size = {n | b.has n = true}.ncard := by
  have held : {n | b.has n = true} = ↑(b.toList.map UInt32.toNat).toFinset := by
    ext n
    simp [Bitmap.has_iff]
  have distinct : (b.toList.map UInt32.toNat).Nodup := by
    refine List.Pairwise.map _ (fun i j h same => h ?_) Std.ExtTreeSet.distinct_toList
    rw [UInt32.toNat_inj.1 same]
    exact Std.ReflCmp.compare_self
  rw [held, Set.ncard_coe_finset, List.toFinset_card_of_nodup distinct, List.length_map,
    Std.ExtTreeSet.length_toList]

namespace Watermark

/-- The number of acknowledged offsets that the ack offset has not passed. -/
noncomputable def backlog (w : Watermark) : Nat := {o | w.ackOffset ≤ o ∧ w.isAcked o = true}.ncard

variable {w : Watermark} {o : UInt64}

/-! ### Bits below the ack offset -/

/-- What the bitmap looks like below the ack offset. -/
structure Packed (w : Watermark) : Prop where
  /-- Every offset from the base to the ack offset has its bit. -/
  marks : ∀ n, w.base.toNat ≤ n → n < w.ackOffset.toNat → w.marks n
  /-- The ack offset is at the base, or less than the threshold past it. -/
  near : w.base = w.ackOffset ∨ w.ackOffset - w.base < w.threshold

/-- With the base at the ack offset there is nothing below it. -/
theorem packed_of_base_eq (h : w.base = w.ackOffset) : w.Packed where
  marks _ hn hlt := absurd hlt (Nat.not_lt.2 (h ▸ hn))
  near := Or.inl h

theorem packed_start (first threshold : UInt64) : (start first threshold).Packed :=
  packed_of_base_eq rfl

theorem packed_rebase (w : Watermark) : w.rebase.Packed := packed_of_base_eq rfl

theorem Packed.anchored (h : w.Packed) (o : UInt64) : (w.anchored o).1.Packed := by
  unfold Watermark.anchored
  split
  · exact h
  · exact packed_rebase w

theorem Packed.record (h : w.Packed) (indexed : w.base ≤ o)
    (near : o.toNat - w.base.toNat < Bitmap.range) : (w.record o).Packed where
  marks n hn hlt := (marks_record indexed near).2 (Or.inr (h.marks n hn hlt))
  near := h.near

/-- The ack offset passes bits only, and once it is far from the base the bitmap is re-anchored. -/
theorem Packed.settle (h : w.Packed) (low : w.base ≤ w.ackOffset) (fits : w.target < UInt64.size)
    (rebases : Nat) : (w.settle (.ofNat w.target) rebases).next.Packed := by
  unfold Watermark.settle
  split
  next => exact h
  next =>
    dsimp only
    split
    next => exact packed_rebase _
    next close =>
      obtain ⟨-, -, run⟩ := target_spec low
      refine ⟨fun n hn hlt => ?_, Or.inr (UInt64.not_le.1 close)⟩
      have before : n < w.target := by
        rwa [UInt64.toNat_ofNat_of_lt' fits] at hlt
      by_cases passed : n < w.ackOffset.toNat
      · exact h.marks n hn passed
      · exact run n (Nat.not_lt.1 passed) before

theorem Packed.commit (h : w.Packed) (low : w.base ≤ w.ackOffset) {c : Commit}
    (ok : w.commit o = .ok c) : c.next.Packed := by
  by_cases stale : o < w.ackOffset
  · rw [commit_of_lt stale] at ok
    cases ok
    exact h
  have above : w.ackOffset ≤ o := UInt64.not_lt.1 stale
  cases inside : w.inWindow o with
  | false =>
    rw [commit_of_not_inWindow inside] at ok
    cases ok
  | true =>
    obtain ⟨base, near, -, -⟩ := anchored_spec low above inside
    have noted := noted_record low above inside
    rw [commit_eq_settle low above inside] at ok
    split at ok
    next fits =>
      cases ok
      have recorded := (h.anchored o).record (UInt64.le_trans base above) near
      exact recorded.settle noted.base_le fits _
    next => cases ok

theorem packed_attempts (h : w.Packed) (low : w.base ≤ w.ackOffset) (os : List UInt64) :
    (w.attempts os).Packed :=
  (attempts_keep (P := fun w => w.base ≤ w.ackOffset ∧ w.Packed) ⟨low, h⟩
    (fun kept ok => ⟨base_le_of_commit kept.1 ok, kept.2.commit kept.1 ok⟩) os).2

/-! ### Counting bits -/

theorem pending_eq_ncard (w : Watermark) : w.pending = {n | w.marks n}.ncard := by
  have shifted : {n | w.marks n} = (fun i => w.base.toNat + i) '' {i | w.bits.has i = true} := by
    ext n
    constructor
    · intro h
      obtain ⟨hn, bit⟩ := h
      exact ⟨n - w.base.toNat, bit, by simp only; omega⟩
    · rintro ⟨i, bit, rfl⟩
      refine ⟨Nat.le_add_right _ i, ?_⟩
      rwa [Nat.add_sub_cancel_left]
  rw [shifted, Set.ncard_image_of_injective _ (add_right_injective w.base.toNat), pending,
    Bitmap.size_eq_ncard]

/-- The backlog is the number of bits from the ack offset on. -/
theorem Sound.backlog_eq (sound : w.Sound) :
    w.backlog = {n | w.ackOffset.toNat ≤ n ∧ w.marks n}.ncard := by
  have words : {n | w.ackOffset.toNat ≤ n ∧ w.marks n} =
      UInt64.toNat '' {o | w.ackOffset ≤ o ∧ w.isAcked o = true} := by
    ext n
    constructor
    · intro h
      obtain ⟨hn, bit⟩ := h
      have number : (UInt64.ofNat n).toNat = n :=
        UInt64.toNat_ofNat_of_lt' (Nat.lt_trans (sound.marks_lt n bit) lastOffset.toNat_lt_size)
      refine ⟨.ofNat n, ⟨UInt64.le_iff_toNat_le.2 (number.symm ▸ hn), ?_⟩, number⟩
      exact isAcked_iff.2 (Or.inr (number.symm ▸ bit))
    · rintro ⟨o, ⟨above, acked⟩, rfl⟩
      exact ⟨UInt64.le_iff_toNat_le.1 above,
        (isAcked_iff.1 acked).resolve_left (UInt64.not_lt.2 above)⟩
  rw [words, Set.ncard_image_of_injective _ fun a b => UInt64.toNat_inj.1, backlog]

/-- The bits are those from the base to the ack offset and the backlog. -/
theorem Sound.pending_eq (sound : w.Sound) (packed : w.Packed) :
    w.pending = (w.ackOffset - w.base).toNat + w.backlog := by
  have low := UInt64.le_iff_toNat_le.1 sound.base_le
  have parts : {n | w.marks n} = Set.Ico w.base.toNat w.ackOffset.toNat ∪
      {n | w.ackOffset.toNat ≤ n ∧ w.marks n} := by
    ext n
    constructor
    · intro bit
      by_cases passed : n < w.ackOffset.toNat
      · exact Or.inl ⟨bit.1, passed⟩
      · exact Or.inr ⟨Nat.not_lt.1 passed, bit⟩
    · rintro (⟨hn, passed⟩ | ⟨-, bit⟩)
      · exact packed.marks n hn passed
      · exact bit
  have apart : Disjoint (Set.Ico w.base.toNat w.ackOffset.toNat)
      {n | w.ackOffset.toNat ≤ n ∧ w.marks n} := by
    rw [Set.disjoint_left]
    intro n passed waiting
    exact absurd passed.2 (Nat.not_lt.2 waiting.1)
  have passed : (Set.Ico w.base.toNat w.ackOffset.toNat).Finite :=
    (Set.finite_lt_nat w.ackOffset.toNat).subset fun n h => h.2
  have waiting : {n | w.ackOffset.toNat ≤ n ∧ w.marks n}.Finite :=
    (Set.finite_lt_nat lastOffset.toNat).subset fun n h => sound.marks_lt n h.2
  rw [pending_eq_ncard, parts, Set.ncard_union_eq apart passed waiting, Set.ncard_Ico_nat,
    sound.backlog_eq, UInt64.toNat_sub_of_le _ _ sound.base_le]

/-- **What the number of bits counts.** After any commits of offsets before the last one, the bitmap
of a watermark has a bit for each offset of the backlog and for each offset from the base to the ack
offset. So it counts the backlog exactly while the base is at the ack offset, and else too much, but
by less than the threshold. -/
theorem attempts_pending (first threshold : UInt64) (os : List UInt64)
    (hos : ∀ o ∈ os, o < lastOffset) :
    let w := (start first threshold).attempts os
    w.pending = (w.ackOffset - w.base).toNat + w.backlog ∧
      (w.pending = w.backlog ↔ w.base = w.ackOffset) ∧
      w.pending < w.backlog + max 1 threshold.toNat := by
  intro w
  have sound : w.Sound := ((collects_start first threshold).attempts hos).sound
  have packed : w.Packed := packed_attempts (packed_start first threshold) (UInt64.le_refl _) os
  have limit : w.threshold = threshold := threshold_attempts _ os
  have count := sound.pending_eq packed
  have low := UInt64.le_iff_toNat_le.1 sound.base_le
  have distance := UInt64.toNat_sub_of_le _ _ sound.base_le
  refine ⟨count, ?_, ?_⟩
  · rw [← UInt64.toNat_inj]
    omega
  · rcases packed.near with here | close
    · have := congrArg UInt64.toNat here
      omega
    · rw [limit, UInt64.lt_iff_toNat_lt] at close
      omega

/-- The offsets 4, 5 and 6 out of order, and 9: three bits are passed, one waits. -/
theorem attempts_pending_passed :
    (∀ o ∈ [5, 6, 4, 9], o < lastOffset) ∧
      let w := (start 4 10).attempts [5, 6, 4, 9]
      w.pending = 4 ∧ w.backlog = 1 := by
  have bound : ∀ o ∈ [5, 6, 4, 9], o < lastOffset := by simp [lastOffset]
  have count : ((start 4 10).attempts [5, 6, 4, 9]).pending = 4 := by decide +kernel
  have passed : (((start 4 10).attempts [5, 6, 4, 9]).ackOffset -
      ((start 4 10).attempts [5, 6, 4, 9]).base).toNat = 3 := by decide +kernel
  have parts := (attempts_pending 4 10 _ bound).1
  rw [count, passed] at parts
  exact ⟨bound, count, by omega⟩

/-- A single commit at the ack offset leaves nothing to wait for, and one bit. -/
theorem attempts_pending_too_many :
    let w := (start 0 2).attempts [0]
    w.pending = 1 ∧ {o | w.ackOffset ≤ o ∧ w.isAcked o = true}.ncard = 0 := by
  intro w
  have sound : w.Sound := ((collects_start 0 2).attempts (by simp [lastOffset])).sound
  have packed : w.Packed := packed_attempts (packed_start 0 2) (UInt64.le_refl _) [0]
  have count : w.pending = 1 := by decide +kernel
  have passed : (w.ackOffset - w.base).toNat = 1 := by decide +kernel
  have parts := sound.pending_eq packed
  rw [count, passed, backlog] at parts
  exact ⟨count, by omega⟩

end Watermark

end QueueLedger
