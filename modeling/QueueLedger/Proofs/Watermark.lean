import Mathlib.Order.Bounds.Defs
import QueueLedger.Watermark
/-!
# What a commit does to a watermark

A watermark keeps bits relative to a base that moves. Seen from outside, a bit stands for an
offset (`Watermark.marks`), and the base is only bookkeeping: re-anchoring the bitmap keeps
every mark from the ack offset on.

The invariant is `Watermark.Sound`: the base is not above the ack offset, and no bit stands for
the last 64-bit offset or anything past it. Under it a commit inside the window cannot fail
(`Watermark.commit_spec`), and it keeps the invariant. The ack offset only rises, so what was
inside the window once stays there (`Watermark.inWindow_mono`). That is why a batch whose window
was checked before can be committed offset by offset.
-/

namespace QueueLedger

/-- The largest offset. Recording it could carry a mark past the last word. -/
def lastOffset : UInt64 := 0xffffffffffffffff

theorem toNat_lastOffset : lastOffset.toNat = UInt64.size - 1 := rfl

/-! ### Bits by number -/

namespace Bitmap

theorem has_iff {b : Bitmap} {n : Nat} : b.has n = true ↔ ∃ i ∈ b, i.toNat = n := by
  simp only [has, Bool.and_eq_true, decide_eq_true_eq, Std.ExtTreeSet.contains_iff_mem]
  constructor
  · intro h
    obtain ⟨hn, hi⟩ := h
    exact ⟨UInt32.ofNat n, hi, UInt32.toNat_ofNat_of_lt' hn⟩
  · intro h
    obtain ⟨i, hi, rfl⟩ := h
    exact ⟨i.toNat_lt, by simpa using hi⟩

@[simp] theorem has_empty (n : Nat) : has ∅ n = false := by
  simp [has]

theorem has_insert {b : Bitmap} {i : UInt32} {n : Nat} :
    has (b.insert i) n = true ↔ n = i.toNat ∨ b.has n = true := by
  simp only [has_iff, Std.ExtTreeSet.mem_insert, Std.LawfulEqCmp.compare_eq_iff_eq]
  constructor
  · intro h
    rcases h with ⟨j, rfl | hj, rfl⟩
    · exact Or.inl rfl
    · exact Or.inr ⟨j, hj, rfl⟩
  · intro h
    rcases h with rfl | ⟨j, hj, rfl⟩
    · exact ⟨i, Or.inl rfl, rfl⟩
    · exact ⟨j, Or.inr hj, rfl⟩

/-- Re-anchoring shifts every bit that it keeps. -/
theorem has_dropBelow {b : Bitmap} {shift n : Nat} :
    (b.dropBelow shift).has n = true ↔ b.has (n + shift) = true := by
  constructor
  · intro h
    obtain ⟨j, hj, rfl⟩ := has_iff.1 h
    obtain ⟨i, hi, he⟩ := mem_dropBelow.1 hj
    exact has_iff.2 ⟨i, hi, he⟩
  · intro h
    obtain ⟨i, hi, he⟩ := has_iff.1 h
    have hn : n < UInt32.size := Nat.lt_of_le_of_lt (by omega) i.toNat_lt
    have ht : (UInt32.ofNat n).toNat = n := UInt32.toNat_ofNat_of_lt' hn
    exact has_iff.2 ⟨UInt32.ofNat n, mem_dropBelow.2 ⟨i, hi, by rw [ht]; exact he⟩, ht⟩

end Bitmap

namespace Watermark

/-! ### The offsets that bits stand for -/

/-- Whether a bit stands for the offset `n`. -/
def marks (w : Watermark) (n : Nat) : Prop :=
  w.base.toNat ≤ n ∧ w.bits.has (n - w.base.toNat) = true

theorem isAcked_iff {w : Watermark} {o : UInt64} :
    w.isAcked o = true ↔ o < w.ackOffset ∨ w.marks o.toNat := by
  unfold isAcked index? marks
  rw [Bool.or_eq_true, decide_eq_true_eq]
  split
  next h => simp [UInt64.le_iff_toNat_le.1 h]
  next h =>
    have below : ¬ w.base.toNat ≤ o.toNat := fun h' => h (UInt64.le_iff_toNat_le.2 h')
    simp [below]

/-- The state that commits work on. The base is not above the ack offset, and no bit stands for
the last offset or for anything past it. -/
structure Sound (w : Watermark) : Prop where
  /-- The base is not above the ack offset. -/
  base_le : w.base ≤ w.ackOffset
  /-- Every bit stands for an offset before the last one. -/
  marks_lt : ∀ n, w.marks n → n < lastOffset.toNat

theorem not_marks_start (ackOffset threshold : UInt64) (n : Nat) :
    ¬ (start ackOffset threshold).marks n := by
  simp [marks, start]

theorem sound_start (ackOffset threshold : UInt64) : (start ackOffset threshold).Sound where
  base_le := UInt64.le_refl _
  marks_lt n h := absurd h (not_marks_start ackOffset threshold n)

/-- Re-anchoring forgets what lies below the ack offset and nothing else. -/
theorem marks_rebase {w : Watermark} (h : w.base ≤ w.ackOffset) {n : Nat} :
    w.rebase.marks n ↔ w.ackOffset.toNat ≤ n ∧ w.marks n := by
  have hb := UInt64.le_iff_toNat_le.1 h
  simp only [marks, rebase, Bitmap.has_dropBelow]
  constructor
  · intro h
    obtain ⟨hn, hbit⟩ := h
    refine ⟨hn, by omega, ?_⟩
    rwa [show n - w.ackOffset.toNat + (w.ackOffset.toNat - w.base.toNat) = n - w.base.toNat
      by omega] at hbit
  · intro h
    obtain ⟨hn, -, hbit⟩ := h
    refine ⟨hn, ?_⟩
    rwa [show n - w.ackOffset.toNat + (w.ackOffset.toNat - w.base.toNat) = n - w.base.toNat
      by omega]

/-- Setting the bit of an offset that has an index adds this offset. -/
theorem marks_record {w : Watermark} {o : UInt64} (h : w.base ≤ o)
    (near : o.toNat - w.base.toNat < Bitmap.range) {n : Nat} :
    (w.record o).marks n ↔ n = o.toNat ∨ w.marks n := by
  have hb := UInt64.le_iff_toNat_le.1 h
  have hi : (UInt32.ofNat (o.toNat - w.base.toNat)).toNat = o.toNat - w.base.toNat :=
    UInt32.toNat_ofNat_of_lt' near
  simp only [marks, record, Bitmap.has_insert, hi]
  constructor
  · intro h
    rcases h with ⟨hn, he | hbit⟩
    · exact Or.inl (by omega)
    · exact Or.inr ⟨hn, hbit⟩
  · intro h
    rcases h with rfl | ⟨hn, hbit⟩
    · exact ⟨hb, Or.inl rfl⟩
    · exact ⟨hn, Or.inr hbit⟩

/-- The target is the first offset from the ack offset on that no bit stands for. -/
theorem target_spec {w : Watermark} (h : w.base ≤ w.ackOffset) :
    w.ackOffset.toNat ≤ w.target ∧ ¬ w.marks w.target ∧
      ∀ n, w.ackOffset.toNat ≤ n → n < w.target → w.marks n := by
  have hb := UInt64.le_iff_toNat_le.1 h
  have reach := Bitmap.le_firstGap w.bits (w.ackOffset.toNat - w.base.toNat)
  refine ⟨?_, ?_, ?_⟩
  · unfold target; omega
  · intro h
    obtain ⟨-, hbit⟩ := h
    have gap := Bitmap.firstGap_not_has w.bits (w.ackOffset.toNat - w.base.toNat)
    rw [target, Nat.add_sub_cancel_left, gap] at hbit
    exact Bool.noConfusion hbit
  · intro n hn hlt
    unfold target at hlt
    have index : n - w.base.toNat < w.bits.firstGap (w.ackOffset.toNat - w.base.toNat) := by omega
    exact ⟨by omega, Bitmap.has_of_lt_firstGap (by omega) index⟩

/-- Only the target is the first such offset. -/
theorem target_eq {w : Watermark} (h : w.base ≤ w.ackOffset) {m : Nat}
    (le : w.ackOffset.toNat ≤ m) (gap : ¬ w.marks m)
    (run : ∀ n, w.ackOffset.toNat ≤ n → n < m → w.marks n) : w.target = m := by
  obtain ⟨le', gap', run'⟩ := target_spec h
  rcases Nat.lt_trichotomy w.target m with early | same | late
  · exact absurd (run _ le' early) gap'
  · exact same
  · exact absurd (run' m le late) gap

/-! ### One commit -/

theorem inWindow_iff {w : Watermark} {o : UInt64} :
    w.inWindow o = true ↔ o.toNat < w.ackOffset.toNat + window := by
  simp [inWindow]

/-- What lies inside the window stays there while the ack offset rises. -/
theorem inWindow_mono {w w' : Watermark} {o : UInt64} (h : w.ackOffset ≤ w'.ackOffset)
    (inside : w.inWindow o = true) : w'.inWindow o = true := by
  have ha := UInt64.le_iff_toNat_le.1 h
  rw [inWindow_iff] at inside ⊢
  omega

/-- Making room moves neither the ack offset nor the threshold. -/
theorem anchored_keeps (w : Watermark) (o : UInt64) :
    (w.anchored o).1.ackOffset = w.ackOffset ∧ (w.anchored o).1.threshold = w.threshold := by
  unfold anchored
  split
  · exact ⟨rfl, rfl⟩
  · exact ⟨rfl, rfl⟩

/-- Making room for an offset inside the window gives it an index and keeps every bit that is
still looked at. -/
theorem anchored_spec {w : Watermark} {o : UInt64} (h : w.base ≤ w.ackOffset)
    (above : w.ackOffset ≤ o) (inside : w.inWindow o = true) :
    (w.anchored o).1.base ≤ w.ackOffset ∧ o.toNat - (w.anchored o).1.base.toNat < Bitmap.range ∧
      (∀ n, (w.anchored o).1.marks n → w.marks n) ∧
      ∀ n, w.ackOffset.toNat ≤ n → w.marks n → (w.anchored o).1.marks n := by
  unfold anchored
  split
  next near => exact ⟨h, near, fun _ h => h, fun _ _ h => h⟩
  next far =>
    have inside := inWindow_iff.1 inside
    have index : o.toNat - w.ackOffset.toNat < window := by
      have := UInt64.le_iff_toNat_le.1 above
      omega
    exact ⟨UInt64.le_refl _, index, fun n hn => ((marks_rebase h).1 hn).2,
      fun n hn hm => (marks_rebase h).2 ⟨hn, hm⟩⟩

/-- The watermark `r` is `w` with the bit of `o` set, before the ack offset moves. Bits below the
ack offset may be gone. -/
structure Noted (w : Watermark) (o : UInt64) (r : Watermark) : Prop where
  /-- The ack offset has not moved yet. -/
  ackOffset : r.ackOffset = w.ackOffset
  /-- The base is not above it. -/
  base_le : r.base ≤ r.ackOffset
  /-- No other bit is set. -/
  weaken : ∀ n, r.marks n → n = o.toNat ∨ w.marks n
  /-- The bits from the ack offset on are still there. -/
  keep : ∀ n, w.ackOffset.toNat ≤ n → n = o.toNat ∨ w.marks n → r.marks n

/-- Making room for an offset and setting its bit notes the offset. -/
theorem noted_record {w : Watermark} {o : UInt64} (h : w.base ≤ w.ackOffset)
    (above : w.ackOffset ≤ o) (inside : w.inWindow o = true) :
    Noted w o ((w.anchored o).1.record o) := by
  obtain ⟨hack, -⟩ := w.anchored_keeps o
  obtain ⟨hbase, near, weaken, keep⟩ := anchored_spec h above inside
  generalize (w.anchored o).1 = w' at *
  have mark (n : Nat) : (w'.record o).marks n ↔ n = o.toNat ∨ w'.marks n :=
    marks_record (UInt64.le_trans hbase above) near
  refine ⟨hack, ?_, fun n hn => ?_, fun n hn hm => ?_⟩
  · show w'.base ≤ w'.ackOffset
    rw [hack]
    exact hbase
  · exact ((mark n).1 hn).imp_right (weaken n)
  · exact (mark n).2 (hm.imp_right (keep n hn))

/-- A commit inside the window and from the ack offset on makes room for its offset, sets the bit
and moves the ack offset to the target. -/
theorem commit_eq_settle {w : Watermark} {o : UInt64} (h : w.base ≤ w.ackOffset)
    (above : w.ackOffset ≤ o) (inside : w.inWindow o = true) :
    w.commit o =
      if ((w.anchored o).1.record o).target < UInt64.size then
        .ok (((w.anchored o).1.record o).settle (.ofNat ((w.anchored o).1.record o).target)
          (w.anchored o).2)
      else .error .outOfRange := by
  have low := (noted_record h above inside).base_le
  have not_below : ¬ o < w.ackOffset := UInt64.not_lt.2 above
  rw [commit, if_neg not_below, if_pos inside, if_pos (UInt64.le_trans h above)]
  simp only [low, true_and]

/-- A commit inside the window and from the ack offset on sets the bit of its offset and moves the
ack offset to the target. Only if that is no word does it fail. -/
theorem commit_eq {w : Watermark} {o : UInt64} (h : w.base ≤ w.ackOffset)
    (above : w.ackOffset ≤ o) (inside : w.inWindow o = true) :
    ∃ r rebases, Noted w o r ∧ w.commit o =
      if r.target < UInt64.size then .ok (r.settle (.ofNat r.target) rebases)
      else .error .outOfRange :=
  ⟨_, _, noted_record h above inside, commit_eq_settle h above inside⟩

/-- Setting the bit of an offset that is not the last one keeps the invariant. -/
theorem Noted.sound {w r : Watermark} {o : UInt64} (noted : Noted w o r) (sound : w.Sound)
    (ho : o < lastOffset) : r.Sound where
  base_le := noted.base_le
  marks_lt n hn := by
    rcases noted.weaken n hn with rfl | old
    · exact UInt64.lt_iff_toNat_lt.1 ho
    · exact sound.marks_lt n old

/-- The target is a word: only a bit for the last offset could make it leave the range. -/
theorem Sound.target_lt {w : Watermark} (sound : w.Sound) : w.target < UInt64.size := by
  obtain ⟨-, -, run⟩ := target_spec sound.base_le
  have hack := w.ackOffset.toNat_lt_size
  by_cases past : UInt64.size - 1 < w.target
  · have bit := sound.marks_lt (UInt64.size - 1) (run _ (by omega) past)
    rw [toNat_lastOffset] at bit
    omega
  · omega

/-- What is told of the move of the ack offset. The threshold stays. -/
theorem settle_told (w : Watermark) (mark : UInt64) (rebases : Nat) :
    (w.settle mark rebases).next.ackOffset = mark ∧
      (w.settle mark rebases).next.threshold = w.threshold ∧
      if mark = w.ackOffset then
        (w.settle mark rebases).advanced = none ∧ (w.settle mark rebases).heard = []
      else
        (w.settle mark rebases).advanced = some mark ∧ (w.settle mark rebases).heard = [mark] := by
  unfold settle
  by_cases still : mark = w.ackOffset
  · rw [if_pos still, if_pos still]
    exact ⟨still.symm, rfl, rfl, rfl⟩
  · rw [if_neg still, if_neg still]
    by_cases behind : w.threshold ≤ mark - w.base
    · rw [if_pos behind]
      exact ⟨rfl, rfl, rfl, rfl⟩
    · rw [if_neg behind]
      exact ⟨rfl, rfl, rfl, rfl⟩

/-- Moving the ack offset keeps the bits from there on, whether or not the bitmap is re-anchored. -/
theorem settle_spec {w : Watermark} {mark : UInt64} (rebases : Nat) (h : w.base ≤ mark) :
    (w.settle mark rebases).next.base ≤ mark ∧
      (∀ n, (w.settle mark rebases).next.marks n → w.marks n) ∧
      ∀ n, mark.toNat ≤ n → w.marks n → (w.settle mark rebases).next.marks n := by
  unfold settle
  by_cases still : mark = w.ackOffset
  · rw [if_pos still]
    exact ⟨h, fun _ h => h, fun _ _ h => h⟩
  · rw [if_neg still]
    let moved : Watermark := { w with ackOffset := mark }
    have anchor : moved.base ≤ moved.ackOffset := h
    by_cases behind : w.threshold ≤ mark - w.base
    · -- Re-anchoring forgets only bits below the new ack offset.
      rw [if_pos behind]
      exact ⟨UInt64.le_refl _, fun n hn => ((marks_rebase anchor).1 hn).2,
        fun n hn hm => (marks_rebase anchor).2 ⟨hn, hm⟩⟩
    · rw [if_neg behind]
      exact ⟨h, fun _ h => h, fun _ _ h => h⟩

/-- Moving the ack offset to the target keeps the bits from there on, and the base stays behind. -/
theorem settle_target {w : Watermark} (h : w.base ≤ w.ackOffset) (fits : w.target < UInt64.size)
    (rebases : Nat) {c : Commit} (hc : c = w.settle (.ofNat w.target) rebases) :
    c.next.base ≤ c.next.ackOffset ∧ c.next.ackOffset.toNat = w.target ∧
      (∀ n, c.next.marks n → w.marks n) ∧
      ∀ n, c.next.ackOffset.toNat ≤ n → w.marks n → c.next.marks n := by
  have ht : (UInt64.ofNat w.target).toNat = w.target := UInt64.toNat_ofNat_of_lt' fits
  have hmark : w.base ≤ UInt64.ofNat w.target := by
    have hle := (target_spec h).1
    rw [UInt64.le_iff_toNat_le, ht]
    exact Nat.le_trans (UInt64.le_iff_toNat_le.1 h) hle
  obtain ⟨next, -, -⟩ := w.settle_told (.ofNat w.target) rebases
  obtain ⟨base, shrink, keep⟩ := settle_spec rebases hmark
  rw [← hc] at next base shrink keep
  rw [next]
  exact ⟨base, ht, shrink, keep⟩

/-- Moving the ack offset of a watermark to its target keeps the invariant. It passes only bits and
stops at a gap, and the bits from there on stay. -/
theorem Sound.settle_target {w : Watermark} (sound : w.Sound) (rebases : Nat) {c : Commit}
    (hc : c = w.settle (.ofNat w.target) rebases) :
    c.next.Sound ∧ w.ackOffset ≤ c.next.ackOffset ∧
      (∀ n, w.ackOffset.toNat ≤ n → n < c.next.ackOffset.toNat → w.marks n) ∧
      ¬ c.next.marks c.next.ackOffset.toNat ∧
      ∀ n, c.next.ackOffset.toNat ≤ n → (c.next.marks n ↔ w.marks n) := by
  obtain ⟨hle, gap, run⟩ := target_spec sound.base_le
  obtain ⟨base, reached, shrink, keep⟩ :=
    Watermark.settle_target sound.base_le sound.target_lt rebases hc
  refine ⟨⟨base, fun n h => sound.marks_lt n (shrink n h)⟩, ?_, fun n hn hlt => ?_, ?_,
    fun n hn => ?_⟩
  · rw [UInt64.le_iff_toNat_le, reached]
    exact hle
  · rw [reached] at hlt
    exact run n hn hlt
  · rw [reached]
    exact fun h => gap (shrink _ h)
  · exact ⟨shrink n, keep n hn⟩

/-- What a commit that records the offset `o` does to a watermark. -/
structure Records (w : Watermark) (o : UInt64) (c : Commit) : Prop where
  /-- The invariant is kept. -/
  sound : c.next.Sound
  /-- The ack offset does not fall. -/
  le : w.ackOffset ≤ c.next.ackOffset
  /-- The ack offset passes only what is recorded. -/
  passed : ∀ n, w.ackOffset.toNat ≤ n → n < c.next.ackOffset.toNat → n = o.toNat ∨ w.marks n
  /-- The ack offset stops at what is not recorded. -/
  gap : ¬ c.next.marks c.next.ackOffset.toNat
  /-- From the ack offset on, the bits are those from before and the one of `o`. -/
  pending : ∀ n, c.next.ackOffset.toNat ≤ n → (c.next.marks n ↔ n = o.toNat ∨ w.marks n)
  /-- The ack offset is given back, and the listener hears it once, exactly if it moved. -/
  told : if c.next.ackOffset = w.ackOffset then c.advanced = none ∧ c.heard = []
    else c.advanced = some c.next.ackOffset ∧ c.heard = [c.next.ackOffset]

/-- A commit inside the window and from the ack offset on succeeds and records the offset. -/
theorem commit_spec {w : Watermark} {o : UInt64} (sound : w.Sound) (ho : o < lastOffset)
    (above : w.ackOffset ≤ o) (inside : w.inWindow o = true) :
    ∃ c, w.commit o = .ok c ∧ Records w o c := by
  obtain ⟨r, rebases, noted, committed⟩ := commit_eq sound.base_le above inside
  have recorded : r.Sound := noted.sound sound ho
  rw [if_pos recorded.target_lt] at committed
  obtain ⟨next, -, told⟩ := r.settle_told (.ofNat r.target) rebases
  generalize hc : r.settle (.ofNat r.target) rebases = c at *
  obtain ⟨kept, le, passed, gap, pending⟩ := recorded.settle_target rebases hc.symm
  rw [noted.ackOffset] at le passed told
  rw [← next] at told
  refine ⟨c, committed, kept, le, fun n hn hlt => ?_, gap, fun n hn => ?_, told⟩
  · exact noted.weaken n (passed n hn hlt)
  · -- The ack offset has only risen, so the bits from it on survived making room.
    have late : w.ackOffset.toNat ≤ n := Nat.le_trans (UInt64.le_iff_toNat_le.1 le) hn
    rw [pending n hn]
    exact ⟨noted.weaken n, noted.keep n late⟩

/-- Whatever the state, a commit that succeeds keeps the threshold, and gives back the new ack
offset if it is another one. -/
theorem commit_told {w : Watermark} {o : UInt64} {c : Commit} (ok : w.commit o = .ok c) :
    c.next.threshold = w.threshold ∧
      (c.advanced = none ∧ c.next.ackOffset = w.ackOffset ∨
        c.advanced = some c.next.ackOffset) := by
  unfold commit at ok
  by_cases stale : o < w.ackOffset
  · rw [if_pos stale] at ok
    cases ok
    exact ⟨rfl, Or.inl ⟨rfl, rfl⟩⟩
  rw [if_neg stale] at ok
  by_cases inside : w.inWindow o = true
  · rw [if_pos inside] at ok
    by_cases indexed : w.base ≤ o
    · rw [if_pos indexed] at ok
      obtain ⟨ack, threshold⟩ := w.anchored_keeps o
      generalize w.anchored o = a at ack threshold ok
      obtain ⟨w', rebases⟩ := a
      dsimp only at ack threshold ok
      split at ok
      · cases ok
        obtain ⟨next, limit, told⟩ :=
          (w'.record o).settle_told (.ofNat (w'.record o).target) rebases
        refine ⟨limit.trans threshold, ?_⟩
        rw [next]
        split at told
        next still => exact Or.inl ⟨told.1, still.trans ack⟩
        next => exact Or.inr told.1
      · cases ok
    · rw [if_neg indexed] at ok
      cases ok
  · rw [if_neg inside] at ok
    cases ok

/-- With `o` recorded, every offset from the ack offset to the last one is. The mark would have to
pass the last word. -/
def Full (w : Watermark) (o : UInt64) : Prop :=
  ∀ n, w.ackOffset.toNat ≤ n → n < UInt64.size → n = o.toNat ∨ w.marks n

/-- With the bit of `o` set, the target is no word exactly if every word from the ack offset on is
recorded. -/
theorem Noted.full_iff {w r : Watermark} {o : UInt64} (noted : Noted w o r) :
    w.Full o ↔ UInt64.size ≤ r.target := by
  obtain ⟨le, gap, run⟩ := target_spec noted.base_le
  rw [noted.ackOffset] at le run
  constructor
  · intro full
    refine Nat.not_lt.1 fun fits => gap ?_
    exact noted.keep _ le (full _ le fits)
  · intro past n hn hlt
    exact noted.weaken n (run n hn (by omega))

/-- A commit in any state whose base is not above the ack offset: the base stays so if it succeeds,
and it fails only outside the window or where the mark would have to pass the last word. -/
theorem commit_of_base_le {w : Watermark} (h : w.base ≤ w.ackOffset) (o : UInt64) :
    (∃ c, w.commit o = .ok c ∧ c.next.base ≤ c.next.ackOffset) ∨
      w.commit o = .error (.ackWindowOverflow o w.ackOffset) ∨
      (w.commit o = .error .outOfRange ∧ w.Full o) := by
  by_cases stale : o < w.ackOffset
  · exact Or.inl ⟨_, commit_of_lt stale, h⟩
  cases inside : w.inWindow o with
  | false => exact Or.inr (Or.inl (commit_of_not_inWindow inside))
  | true =>
    obtain ⟨r, rebases, noted, eq⟩ := commit_eq h (UInt64.not_lt.1 stale) inside
    by_cases fits : r.target < UInt64.size
    · rw [if_pos fits] at eq
      exact Or.inl ⟨_, eq, (settle_target noted.base_le fits rebases rfl).1⟩
    · rw [if_neg fits] at eq
      exact Or.inr (Or.inr ⟨eq, noted.full_iff.2 (Nat.not_lt.1 fits)⟩)

theorem base_le_of_commit {w : Watermark} {o : UInt64} {c : Commit} (h : w.base ≤ w.ackOffset)
    (ok : w.commit o = .ok c) : c.next.base ≤ c.next.ackOffset := by
  have ends := commit_of_base_le h o
  rw [ok] at ends
  obtain ⟨c', eq, base⟩ | eq | ⟨eq, -⟩ := ends
  · cases eq
    exact base
  · cases eq
  · cases eq

/-- A commit of any offset before the last one: it is stale, or it is recorded, or it lies
outside the window and is refused. -/
theorem commit_cases {w : Watermark} {o : UInt64} (sound : w.Sound) (ho : o < lastOffset) :
    (o < w.ackOffset ∧ w.commit o = .ok ⟨w, none, [], 0⟩) ∨
      (w.ackOffset ≤ o ∧ w.inWindow o = true ∧ ∃ c, w.commit o = .ok c ∧ Records w o c) ∨
      (w.inWindow o = false ∧ w.commit o = .error (.ackWindowOverflow o w.ackOffset)) := by
  by_cases stale : o < w.ackOffset
  · exact Or.inl ⟨stale, commit_of_lt stale⟩
  · have above : w.ackOffset ≤ o := UInt64.not_lt.1 stale
    cases inside : w.inWindow o with
    | true => exact Or.inr (Or.inl ⟨above, rfl, commit_spec sound ho above inside⟩)
    | false => exact Or.inr (Or.inr ⟨rfl, commit_of_not_inWindow inside⟩)

/-- Whatever a commit does, the invariant stays and the ack offset does not fall. -/
theorem Sound.commit {w : Watermark} {o : UInt64} {c : Commit} (sound : w.Sound)
    (ho : o < lastOffset) (ok : w.commit o = .ok c) :
    c.next.Sound ∧ w.ackOffset ≤ c.next.ackOffset := by
  rcases commit_cases sound ho with ⟨-, eq⟩ | ⟨-, -, c', eq, rec⟩ | ⟨-, eq⟩
  · rw [eq] at ok
    cases ok
    exact ⟨sound, UInt64.le_refl _⟩
  · rw [eq] at ok
    cases ok
    exact ⟨rec.sound, rec.le⟩
  · rw [eq] at ok
    cases ok

/-- A commit inside the window succeeds. -/
theorem Sound.commit_ok {w : Watermark} {o : UInt64} (sound : w.Sound) (ho : o < lastOffset)
    (inside : w.inWindow o = true) : ∃ c, w.commit o = .ok c := by
  rcases commit_cases sound ho with ⟨-, eq⟩ | ⟨-, -, c, eq, -⟩ | ⟨outside, -⟩
  · exact ⟨_, eq⟩
  · exact ⟨c, eq⟩
  · rw [inside] at outside
    cases outside

end Watermark

end QueueLedger
