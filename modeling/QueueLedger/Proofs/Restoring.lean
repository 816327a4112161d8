import QueueLedger.Proofs.AcknowledgedSet
import QueueLedger.Proofs.BitmapFormat
/-!
# Watermarks read back from their bytes

The bytes of a watermark hold its bitmap; the ack offset and the base travel beside them, and the
threshold is the reader's own. Nothing is lost on the way. With the threshold of the writer the
watermark is the same one. With another threshold it looks the same and answers every later commit
alike, although the two re-anchor their bitmaps at different times from then on.

## Proof shape

That the bits come back is `Bitmap.decode?_encode`, so all that is left to compare are two
watermarks that differ in their threshold. Their bases and bitmaps drift apart with the first
commit that re-anchors only one of them. What does not drift is `Level`: the same ack offset, both
bases not above it, and the same bits from there on. One attempt keeps it and is answered alike
(`Level.attempt`), hence a sequence of attempts is (`Level.tellings_eq`).

A base above the ack offset is not `Level` with anything. There no commit changes the watermark
(`commit_of_base_gt`), so the threshold is never looked at.
-/

namespace QueueLedger.Watermark

variable {w w' : Watermark} {o : UInt64}

/-- What is told of a settled commit depends on the move of the ack offset only. -/
theorem settle_tells (w : Watermark) (mark : UInt64) (rebases : Nat) :
    ((w.settle mark rebases).advanced, (w.settle mark rebases).heard) =
      if mark = w.ackOffset then (none, []) else (some mark, [mark]) := by
  obtain ⟨-, -, told⟩ := w.settle_told mark rebases
  split at told
  next still => rw [if_pos still, told.1, told.2]
  next moved => rw [if_neg moved, told.1, told.2]

/-! ### Bases at or below the ack offset -/

/-- Two watermarks that differ below the ack offset at most, and in their thresholds. -/
structure Level (w w' : Watermark) : Prop where
  /-- The ack offset is the same. -/
  ackOffset : w'.ackOffset = w.ackOffset
  /-- The first base is not above it. -/
  base_le : w.base ≤ w.ackOffset
  /-- Nor is the second one. -/
  base_le' : w'.base ≤ w'.ackOffset
  /-- The bits from the ack offset on are the same. -/
  marks_iff : ∀ n, w.ackOffset.toNat ≤ n → (w'.marks n ↔ w.marks n)

/-- What is level stays so when both note the same offset, and moves to the same target. -/
theorem Level.noted {r r' : Watermark} (h : Level w w') (noted : Noted w o r)
    (noted' : Noted w' o r') : Level r r' ∧ r'.target = r.target := by
  have ack : r'.ackOffset = r.ackOffset := by
    rw [noted.ackOffset, noted'.ackOffset, h.ackOffset]
  have marks (n : Nat) (hn : r.ackOffset.toNat ≤ n) : r'.marks n ↔ r.marks n := by
    rw [noted.ackOffset] at hn
    have hn' : w'.ackOffset.toNat ≤ n := by rwa [h.ackOffset]
    constructor
    · exact fun bit => noted.keep n hn ((noted'.weaken n bit).imp_right (h.marks_iff n hn).1)
    · exact fun bit => noted'.keep n hn' ((noted.weaken n bit).imp_right (h.marks_iff n hn).2)
  refine ⟨⟨ack, noted.base_le, noted'.base_le, marks⟩, ?_⟩
  obtain ⟨le, gap, run⟩ := target_spec noted.base_le
  refine target_eq noted'.base_le (by rwa [ack]) (fun bit => gap ((marks _ le).1 bit)) ?_
  intro n hn hlt
  rw [ack] at hn
  exact (marks n hn).2 (run n hn hlt)

/-- What is level answers the next attempt alike, and is level after it. -/
theorem Level.attempt (h : Level w w') (o : UInt64) :
    w'.told o = w.told o ∧ Level (w.attempt o) (w'.attempt o) := by
  by_cases stale : o < w.ackOffset
  · have ok := commit_of_lt stale
    have ok' := commit_of_lt (w := w') (h.ackOffset.symm ▸ stale)
    rw [told, told, ok, ok', attempt_of_ok ok, attempt_of_ok ok']
    exact ⟨rfl, h⟩
  have above : w.ackOffset ≤ o := UInt64.not_lt.1 stale
  have window : w'.inWindow o = w.inWindow o := by rw [inWindow, inWindow, h.ackOffset]
  by_cases inside : w.inWindow o = true
  · obtain ⟨r, k, noted, eq⟩ := commit_eq h.base_le above inside
    obtain ⟨r', k', noted', eq'⟩ :=
      commit_eq h.base_le' (h.ackOffset.symm ▸ above) (window.trans inside)
    obtain ⟨level, target⟩ := h.noted noted noted'
    rw [target] at eq'
    by_cases fits : r.target < UInt64.size
    · rw [if_pos fits] at eq eq'
      have fits' : r'.target < UInt64.size := by rwa [target]
      obtain ⟨base, reached, shrink, keep⟩ := settle_target level.base_le fits k rfl
      obtain ⟨base', reached', shrink', keep'⟩ := settle_target level.base_le' fits' k' rfl
      rw [target] at base' reached' shrink' keep'
      rw [told, told, eq, eq', attempt_of_ok eq, attempt_of_ok eq']
      refine ⟨?_, UInt64.toNat_inj.1 (reached'.trans reached.symm), base, base', fun n hn => ?_⟩
      · simp only [Except.map, settle_tells, level.ackOffset]
      · have hn' := hn
        rw [reached, ← reached'] at hn'
        have late : r.ackOffset.toNat ≤ n := by
          have := (target_spec level.base_le).1
          omega
        constructor
        · exact fun bit => keep n hn ((level.marks_iff n late).1 (shrink' n bit))
        · exact fun bit => keep' n hn' ((level.marks_iff n late).2 (shrink n bit))
    · rw [if_neg fits] at eq eq'
      rw [told, told, eq, eq', attempt_of_error eq, attempt_of_error eq']
      exact ⟨rfl, h⟩
  · have refused := commit_of_not_inWindow (Bool.eq_false_iff.2 inside)
    have refused' := commit_of_not_inWindow (window.trans (Bool.eq_false_iff.2 inside))
    rw [told, told, refused, refused', attempt_of_error refused, attempt_of_error refused',
      h.ackOffset]
    exact ⟨rfl, h⟩

/-- What is level tells the same from then on. -/
theorem Level.tellings_eq (h : Level w w') (os : List UInt64) : w'.tellings os = w.tellings os := by
  induction os generalizing w w' with
  | nil => rfl
  | cons o os ih =>
    obtain ⟨told, level⟩ := h.attempt o
    rw [tellings, tellings, told, ih level]

/-! ### Bases above the ack offset -/

/-- With the base above the ack offset nothing can be recorded: the offset itself has no index, or
the ack offset has none. -/
theorem commit_of_base_gt (h : ¬ w.base ≤ w.ackOffset) (o : UInt64) :
    w.commit o =
      if o < w.ackOffset then .ok ⟨w, none, [], 0⟩
      else if w.inWindow o then .error .outOfRange
      else .error (.ackWindowOverflow o w.ackOffset) := by
  unfold commit
  split
  · rfl
  split
  next inside =>
    have inside := inWindow_iff.1 inside
    have gt := UInt64.lt_iff_toNat_lt.1 (UInt64.not_le.1 h)
    have near : o.toNat - w.base.toNat < Bitmap.range := by
      have some_room : 0 < window := by decide
      show o.toNat - w.base.toNat < window
      omega
    rw [anchored, if_pos near]
    simp [record, h]
  · rfl

theorem attempt_of_base_gt (h : ¬ w.base ≤ w.ackOffset) (o : UInt64) : w.attempt o = w := by
  rw [attempt, commit_of_base_gt h]
  split
  next ok =>
    split at ok
    · cases ok
      rfl
    · split at ok <;> cases ok
  next => rfl

theorem told_of_base_gt (h : ¬ w.base ≤ w.ackOffset) (o : UInt64) :
    w.told o =
      if o < w.ackOffset then .ok (none, [])
      else if w.inWindow o then .error .outOfRange
      else .error (.ackWindowOverflow o w.ackOffset) := by
  rw [told, commit_of_base_gt h]
  split
  · rfl
  · split <;> rfl

/-- The threshold cannot be heard. -/
theorem tellings_threshold (w : Watermark) (threshold : UInt64) (os : List UInt64) :
    tellings { w with threshold } os = w.tellings os := by
  by_cases h : w.base ≤ w.ackOffset
  · have level : Level w { w with threshold } := ⟨rfl, h, h, fun _ _ => Iff.rfl⟩
    exact level.tellings_eq os
  · let w' : Watermark := { w with threshold }
    have h' : ¬ w'.base ≤ w'.ackOffset := h
    induction os with
    | nil => rfl
    | cons o os ih =>
      rw [tellings, tellings, attempt_of_base_gt h, attempt_of_base_gt h', ih, told_of_base_gt h,
        told_of_base_gt h']
      rfl

/-! ### The main statement -/

/-- Reading a watermark back gives the one that was written, with the reader's threshold. -/
theorem restore_eq (w : Watermark) (threshold : UInt64) :
    restore w.ackOffset w.base w.bitmapBytes threshold = .ok { w with threshold } := by
  have bits : Bitmap.decode? w.bitmapBytes = some w.bits := by
    have whole := Bitmap.decode?_encode w.bits []
    rwa [List.append_nil] at whole
  rw [restore, bits]

/-- **A watermark loses nothing in its bytes.** Whatever its offsets, its bits and the two
thresholds are, reading it back succeeds and gives the same offsets and the same set of bits. So the
same offsets count as acknowledged, as many are pending, the bytes are the same again, and every
sequence of later commits is answered alike. With the same threshold it is the same watermark. -/
theorem restore_bitmapBytes (w : Watermark) (threshold : UInt64) :
    ∃ w', restore w.ackOffset w.base w.bitmapBytes threshold = .ok w' ∧
      w'.ackOffset = w.ackOffset ∧ w'.base = w.base ∧ w'.threshold = threshold ∧
      (∀ i, i ∈ w'.bits ↔ i ∈ w.bits) ∧
      (∀ o, w'.isAcked o = w.isAcked o) ∧
      w'.pending = w.pending ∧
      w'.bitmapBytes = w.bitmapBytes ∧
      (∀ os, w'.tellings os = w.tellings os) ∧
      (threshold = w.threshold → w' = w) := by
  refine ⟨{ w with threshold }, restore_eq w threshold, rfl, rfl, rfl, fun _ => Iff.rfl,
    fun _ => rfl, rfl, rfl, tellings_threshold w threshold, ?_⟩
  intro same
  rw [same]

end QueueLedger.Watermark
