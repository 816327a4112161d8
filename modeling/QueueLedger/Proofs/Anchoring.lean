import QueueLedger.Proofs.Backlog
/-!
# Where the bitmap of a watermark is anchored

A bit is a 32-bit index relative to the base, so offsets keep an index only because the base follows
the ack offset. A commit re-anchors the bitmap for one of two reasons: its offset is too far from
the base for an index, or it moved the ack offset `threshold` or more past the base.

## Proof shape

`Watermark.Settled` is what a watermark looks like between commits; a commit keeps it whatever its
offset is. `Settled.anchoring` is the lemma that carries the rest: in a settled watermark the two
reasons exclude each other, so a commit re-anchors at most once, and if it does, the base moves up
to a value of the ack offset. The case to exclude is an offset that is too far and moves the ack
offset all the same. It can only be the ack offset itself, at the full width of the index from the
base, which the threshold then exceeds.
-/

namespace QueueLedger.Watermark

variable {w : Watermark} {o : UInt64} {c : Commit}

/-! ### Between commits -/

/-- What a watermark looks like before and after a commit. -/
structure Settled (w : Watermark) : Prop where
  /-- The base is not above the ack offset. -/
  base_le : w.base ≤ w.ackOffset
  /-- Every offset between them has its bit, and they are less than the threshold apart. -/
  packed : w.Packed
  /-- The ack offset has no bit. -/
  gap : ¬ w.marks w.ackOffset.toNat

theorem settled_start (first threshold : UInt64) : (start first threshold).Settled where
  base_le := UInt64.le_refl _
  packed := packed_start first threshold
  gap := not_marks_start first threshold _

/-- A commit that succeeds ignores a stale offset. Else it makes room for its offset, sets the bit
and moves the ack offset to the target. -/
theorem commit_ok_cases (low : w.base ≤ w.ackOffset) (ok : w.commit o = .ok c) :
    (o < w.ackOffset ∧ c = ⟨w, none, [], 0⟩) ∨
      (w.ackOffset ≤ o ∧ w.inWindow o = true ∧ ∃ r rebases, w.anchored o = (r, rebases) ∧
        Noted w o (r.record o) ∧ (r.record o).target < UInt64.size ∧
        c = (r.record o).settle (.ofNat (r.record o).target) rebases) := by
  by_cases stale : o < w.ackOffset
  · rw [commit_of_lt stale] at ok
    cases ok
    exact Or.inl ⟨stale, rfl⟩
  have above : w.ackOffset ≤ o := UInt64.not_lt.1 stale
  cases inside : w.inWindow o with
  | false =>
    rw [commit_of_not_inWindow inside] at ok
    cases ok
  | true =>
    rw [commit_eq_settle low above inside] at ok
    split at ok
    next fits =>
      cases ok
      exact Or.inr ⟨above, rfl, _, _, rfl, noted_record low above inside, fits, rfl⟩
    next => cases ok

theorem Settled.commit (h : w.Settled) (ok : w.commit o = .ok c) : c.next.Settled where
  base_le := base_le_of_commit h.base_le ok
  packed := h.packed.commit h.base_le ok
  gap := by
    rcases commit_ok_cases h.base_le ok with ⟨-, rfl⟩ | ⟨-, -, r, rebases, -, noted, fits, rfl⟩
    · exact h.gap
    · obtain ⟨-, reached, shrink, -⟩ := settle_target noted.base_le fits rebases rfl
      rw [reached]
      exact fun bit => (target_spec noted.base_le).2.1 (shrink _ bit)

theorem Settled.attempts (h : w.Settled) (os : List UInt64) : (w.attempts os).Settled :=
  attempts_keep h (fun kept ok => kept.commit ok) os

/-! ### The two reasons -/

/-- Where a commit of the offset `o` leaves the base, and how often it re-anchors on the way. -/
inductive Anchoring (w : Watermark) (o : UInt64) (c : Commit) : Prop
  /-- The base stays. -/
  | kept (base : c.next.base = w.base) (rebases : c.rebases = 0)
  /-- The offset is too far from the base, which moves up to the ack offset before the commit. -/
  | far (distance : Bitmap.range ≤ o.toNat - w.base.toNat) (behind : w.base < w.ackOffset)
      (base : c.next.base = w.ackOffset) (rebases : c.rebases = 1)
  /-- The ack offset has left the base far enough behind, which moves up to the ack offset after the
  commit. -/
  | late (distance : w.threshold ≤ c.next.ackOffset - w.base) (behind : w.base < c.next.ackOffset)
      (base : c.next.base = c.next.ackOffset) (rebases : c.rebases = 1)

/-- Moving the ack offset re-anchors only if it leaves the base far enough behind. -/
theorem settle_anchoring {r : Watermark} {mark : UInt64} {rebases : Nat}
    (hc : c = r.settle mark rebases) :
    c.next.base = r.base ∧ c.rebases = rebases ∨
      c.next.ackOffset ≠ r.ackOffset ∧ r.threshold ≤ c.next.ackOffset - r.base ∧
        c.next.base = c.next.ackOffset ∧ c.rebases = rebases + 1 := by
  subst hc
  unfold settle
  split
  next => exact Or.inl ⟨rfl, rfl⟩
  next moved =>
    dsimp only
    split
    next behind => exact Or.inr ⟨moved, behind, rfl, rfl⟩
    next => exact Or.inl ⟨rfl, rfl⟩

/-- The ack offset moves only if its own bit was set. In a settled watermark it was not, so the
commit is that of the ack offset. -/
theorem Settled.eq_of_moved (h : w.Settled) {r : Watermark} (noted : Noted w o r)
    (moved : r.target ≠ w.ackOffset.toNat) : o = w.ackOffset := by
  obtain ⟨le, -, run⟩ := target_spec noted.base_le
  rw [noted.ackOffset] at le run
  rcases noted.weaken _ (run _ (Nat.le_refl _) (by omega)) with same | bit
  · exact (UInt64.toNat_inj.1 same).symm
  · exact absurd bit h.gap

/-- If the ack offset is too far from the base for an index, no bit from there on is set. -/
theorem not_marks_of_far (far : Bitmap.range ≤ w.ackOffset.toNat - w.base.toNat) {n : Nat}
    (late : w.ackOffset.toNat ≤ n) : ¬ w.marks n := by
  intro bit
  have indexed := bit.2
  rw [Bitmap.has_of_not_lt (by omega)] at indexed
  cases indexed

/-- A commit of the ack offset that is too far from the base moves the ack offset by one. The bitmap
holds nothing else then. -/
theorem target_of_far {r : Watermark} (noted : Noted w w.ackOffset r)
    (far : Bitmap.range ≤ w.ackOffset.toNat - w.base.toNat) : r.target = w.ackOffset.toNat + 1 := by
  have low := noted.base_le
  refine target_eq low (by rw [noted.ackOffset]; omega) (fun bit => ?_) (fun n hn hlt => ?_)
  · rcases noted.weaken _ bit with same | bit
    · omega
    · exact not_marks_of_far far (by omega) bit
  · rw [noted.ackOffset] at hn
    exact noted.keep n hn (Or.inl (by omega))

/-- **A commit re-anchors at most once.** Either the base stays, or it moves up to the value that
the ack offset had before the commit, because the offset had no index, or to the one that it has
after it, because the threshold was reached. Both at once do not happen. -/
theorem Settled.anchoring (h : w.Settled) (ok : w.commit o = .ok c) : Anchoring w o c := by
  rcases commit_ok_cases h.base_le ok with
    ⟨-, rfl⟩ | ⟨above, inside, r, rebases, room, noted, fits, hc⟩
  · exact .kept rfl rfl
  have low := UInt64.le_iff_toNat_le.1 h.base_le
  have reached : c.next.ackOffset.toNat = (r.record o).target :=
    (settle_target noted.base_le fits rebases hc).2.1
  have rises : w.ackOffset.toNat ≤ (r.record o).target := by
    rw [← noted.ackOffset]
    exact (target_spec noted.base_le).1
  have moves := settle_anchoring hc
  rw [noted.ackOffset] at moves
  unfold Watermark.anchored at room
  split at room
  next near =>
    cases room
    rcases moves with ⟨base, count⟩ | ⟨moved, distance, base, count⟩
    · exact .kept base count
    · have differs := mt UInt64.toNat_inj.1 moved
      exact .late distance (UInt64.lt_iff_toNat_lt.2 (by omega)) base count
  next far =>
    cases room
    have wide : Bitmap.range = 4294967296 := rfl
    have behind : w.base < w.ackOffset := by
      have inside : o.toNat < w.ackOffset.toNat + Bitmap.range := inWindow_iff.1 inside
      rw [UInt64.lt_iff_toNat_lt]
      omega
    rcases moves with ⟨base, count⟩ | ⟨moved, distance, -⟩
    · exact .far (Nat.not_lt.1 far) behind base count
    · -- The ack offset moved by one, and by the threshold, which exceeds the range of an index.
      have differs := mt UInt64.toNat_inj.1 moved
      obtain rfl := h.eq_of_moved noted (by omega)
      rw [target_of_far noted (Nat.not_lt.1 far)] at reached
      have limit : w.ackOffset - w.base < w.threshold :=
        h.packed.near.resolve_left (UInt64.ne_of_lt behind)
      have step : w.threshold ≤ c.next.ackOffset - w.ackOffset := distance
      rw [UInt64.lt_iff_toNat_lt, UInt64.toNat_sub_of_le _ _ h.base_le] at limit
      rw [UInt64.le_iff_toNat_le, UInt64.toNat_sub_of_le _ _ (UInt64.le_iff_toNat_le.2 (by omega)),
        reached] at step
      omega

/-- How often a commit re-anchors is told by the base before and after. -/
theorem Settled.rebases_eq (h : w.Settled) (ok : w.commit o = .ok c) :
    c.rebases = if c.next.base = w.base then 0 else 1 := by
  cases h.anchoring ok with
  | kept base rebases => rw [if_pos base, rebases]
  | far _ behind base rebases =>
    rw [if_neg (by rw [base]; exact (UInt64.ne_of_lt behind).symm), rebases]
  | late _ behind base rebases =>
    rw [if_neg (by rw [base]; exact (UInt64.ne_of_lt behind).symm), rebases]

/-- Whatever a commit ends in, the base does not fall, and if it changes it is a value of the ack
offset then. -/
theorem Settled.base_attempt (h : w.Settled) (o : UInt64) :
    w.base ≤ (w.attempt o).base ∧
      ((w.attempt o).base ≠ w.base →
        (w.attempt o).base = w.ackOffset ∨ (w.attempt o).base = (w.attempt o).ackOffset) := by
  cases ends : w.commit o with
  | error e =>
    rw [attempt_of_error ends]
    exact ⟨UInt64.le_refl _, fun moved => absurd rfl moved⟩
  | ok c =>
    rw [attempt_of_ok ends]
    cases h.anchoring ends with
    | kept base => exact ⟨base ▸ UInt64.le_refl _, fun moved => absurd base moved⟩
    | far _ behind base => exact ⟨base ▸ UInt64.le_of_lt behind, fun _ => Or.inl base⟩
    | late _ behind base => exact ⟨base ▸ UInt64.le_of_lt behind, fun _ => Or.inr base⟩

/-! ### The bits of a settled watermark -/

/-- The index of an offset from the base on is the number between them. -/
theorem marks_toNat (h : w.base ≤ o) : w.marks o.toNat ↔ w.bits.has (o - w.base).toNat = true := by
  rw [marks, UInt64.toNat_sub_of_le _ _ h]
  exact and_iff_right (UInt64.le_iff_toNat_le.1 h)

/-- Below the distance of the ack offset from the base every index is set, and this one is not. -/
theorem Settled.bits (h : w.Settled) :
    (∀ i < (w.ackOffset - w.base).toNat, w.bits.has i = true) ∧
      w.bits.has (w.ackOffset - w.base).toNat = false := by
  constructor
  · intro i below
    rw [UInt64.toNat_sub_of_le _ _ h.base_le] at below
    have bit := (h.packed.marks (w.base.toNat + i) (Nat.le_add_right _ _) (by omega)).2
    rwa [Nat.add_sub_cancel_left] at bit
  · rw [Bool.eq_false_iff, ne_eq, ← marks_toNat h.base_le]
    exact h.gap

/-- The bits are exactly the recorded offsets from the base on. -/
theorem Settled.bits_iff (h : w.Settled) {first : UInt64} {s : Set UInt64}
    (collects : Collects first s w) (floor : first ≤ w.base) (ho : w.base ≤ o) :
    o ∈ s ↔ ∃ i ∈ w.bits, o.toNat = w.base.toNat + i.toNat := by
  have indexed : (∃ i ∈ w.bits, o.toNat = w.base.toNat + i.toNat) ↔ w.marks o.toNat := by
    have low := UInt64.le_iff_toNat_le.1 ho
    rw [marks, Bitmap.has_iff]
    constructor
    · rintro ⟨i, bit, same⟩
      exact ⟨low, i, bit, by omega⟩
    · rintro ⟨-, i, bit, same⟩
      exact ⟨i, bit, by omega⟩
  rw [indexed]
  by_cases passed : o < w.ackOffset
  · exact iff_of_true (collects.mem_of_lt o (UInt64.le_trans floor ho) passed)
      (h.packed.marks o.toNat (UInt64.le_iff_toNat_le.1 ho) (UInt64.lt_iff_toNat_lt.1 passed))
  · exact (collects.marks_iff o (UInt64.not_lt.1 passed)).symm

/-! ### The main statement -/

/-- The base does not fall below where the watermark started. -/
theorem first_le_base (first threshold : UInt64) (os : List UInt64) :
    first ≤ ((start first threshold).attempts os).base := by
  have kept := attempts_keep (P := fun w => w.Settled ∧ first ≤ w.base)
    ⟨settled_start first threshold, UInt64.le_refl _⟩ (fun {w o c} before ok => ?_) os
  · exact kept.2
  · have rises := (before.1.base_attempt o).1
    rw [attempt_of_ok ok] at rises
    exact ⟨before.1.commit ok, UInt64.le_trans before.2 rises⟩

/-- **Every recorded offset keeps an index.** Start a watermark at any offset with any threshold and
attempt to commit any offsets before the last one. Then the base is not above the ack offset, and
they are the same or less than the threshold apart; every index below their distance is set, and the
one at it is not. The bits are exactly the recorded offsets from the base on, each at its 32-bit
index. Whatever is committed next, the base does not fall, a commit re-anchors at most once, and
then the base becomes the ack offset before the commit or the one after it. -/
theorem attempts_anchored (first threshold : UInt64) (os : List UInt64)
    (hos : ∀ o ∈ os, o < lastOffset) :
    let w := (start first threshold).attempts os
    w.base ≤ w.ackOffset ∧
      (w.ackOffset = w.base ∨ w.ackOffset - w.base < threshold) ∧
      (∀ i < (w.ackOffset - w.base).toNat, w.bits.has i = true) ∧
      w.bits.has (w.ackOffset - w.base).toNat = false ∧
      (∀ o, w.base ≤ o → (o ∈ acknowledged first threshold os ↔
        ∃ i ∈ w.bits, o.toNat = w.base.toNat + i.toNat)) ∧
      ∀ o, o < lastOffset →
        w.base ≤ (w.attempt o).base ∧
          ((w.attempt o).base ≠ w.base →
            (w.attempt o).base = w.ackOffset ∨ (w.attempt o).base = (w.attempt o).ackOffset) ∧
          ∀ c, w.commit o = .ok c → c.rebases = if c.next.base = w.base then 0 else 1 := by
  intro w
  have settled : w.Settled := (settled_start first threshold).attempts os
  have collects : Collects first (acknowledged first threshold os) w :=
    ((collects_start first threshold).attempts hos).congr fun n => by simp [acknowledged]
  have limit : w.threshold = threshold := threshold_attempts _ os
  obtain ⟨set, unset⟩ := settled.bits
  refine ⟨settled.base_le, ?_, set, unset, fun o ho => ?_, fun o _ => ?_⟩
  · rw [← limit]
    exact settled.packed.near.imp_left Eq.symm
  · exact settled.bits_iff collects (first_le_base first threshold os) ho
  · obtain ⟨rises, moves⟩ := settled.base_attempt o
    exact ⟨rises, moves, fun c ok => settled.rebases_eq ok⟩

/-- Three offsets from the start on and then one without an index: the base moves up to the ack
offset, and the far offset is at the last index. The next one cannot be recorded. -/
theorem attempts_anchored_far :
    (∀ o ∈ [0, 1, 2, 4294967298, 4294967299], o < lastOffset) ∧
      let w := (start 0 100).attempts [0, 1, 2, 4294967298, 4294967299]
      w.base = 3 ∧ w.ackOffset = 3 ∧
        (4294967298 ∈ acknowledged 0 100 [0, 1, 2, 4294967298, 4294967299] ↔
          ∃ i ∈ w.bits, (4294967298 : UInt64).toNat = w.base.toNat + i.toNat) := by
  have bound : ∀ o ∈ [0, 1, 2, 4294967298, 4294967299], o < lastOffset := by simp [lastOffset]
  have base : ((start 0 100).attempts [0, 1, 2, 4294967298, 4294967299]).base = 3 := by
    decide +kernel
  have mark : ((start 0 100).attempts [0, 1, 2, 4294967298, 4294967299]).ackOffset = 3 := by
    decide +kernel
  refine ⟨bound, base, mark, ?_⟩
  exact (attempts_anchored 0 100 _ bound).2.2.2.2.1 _ (by rw [base]; decide)

end QueueLedger.Watermark
