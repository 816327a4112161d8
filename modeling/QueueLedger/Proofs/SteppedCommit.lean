import QueueLedger.Proofs.Restoring
/-!
# Commits in words

`Watermark.commit` finds the next ack offset as a number and looks at the end whether it is a word.
A program that keeps offsets in words takes differences of words and counts the ack offset up one by
one, and each of these operations can leave the range. `Watermark.stepped` is the commit in such
steps. Every difference and every increment is checked where it is taken, and one that leaves the
range (`Stop`) is told apart from a refusal.

The two are the same commit (`stepped_eq`). In a watermark whose base is not above the ack offset,
which is what every sequence of commits keeps, no difference is negative. Only the increment can
leave the range, and only at the last word: when the commit leaves nothing unacknowledged from the
ack offset to the last offset (`attempts_in_range`).
-/

namespace QueueLedger.Watermark

/-! ### The steps -/

/-- Why a commit in steps stops. -/
inductive Stop
  /-- The offset is refused. -/
  | refused (why : Failure)
  /-- A difference of two words is negative. -/
  | negative (minuend subtrahend : UInt64)
  /-- There is no word after the last one. -/
  | pastLast
  deriving Repr, DecidableEq, Inhabited

/-- The failure that the caller of a commit gets. -/
def Stop.failure : Stop → Failure
  | refused why => why
  | negative _ _ | pastLast => .outOfRange

/-- The difference of two words. -/
def difference (a b : UInt64) : Except Stop UInt64 :=
  if b ≤ a then .ok (a - b) else .error (.negative a b)

/-- A word as an index into a bitmap, if it has 32 bits at most. -/
def narrow? (n : UInt64) : Option UInt32 :=
  if n.toNat < Bitmap.range then some (.ofNat n.toNat) else none

/-- Drops every bit below the ack offset and makes that the base. If the ack offset itself has no
index, no bit is left. -/
def reanchor (w : Watermark) : Except Stop Watermark := do
  let shift ← difference w.ackOffset w.base
  match narrow? shift with
  | some index => pure { w with base := w.ackOffset, bits := w.bits.dropBelow index.toNat }
  | none => pure { w with base := w.ackOffset, bits := ∅ }

/-- Re-anchors the bitmap if an offset has no index, and counts it. -/
def makeRoom (w : Watermark) (o : UInt64) : Except Stop (Watermark × Nat) := do
  let distance ← difference o w.base
  if distance.toNat < Bitmap.range then pure (w, 0)
  else do
    let roomy ← w.reanchor
    pure (roomy, 1)

/-- Sets the bit of an offset. -/
def setBit (w : Watermark) (o : UInt64) : Except Stop Watermark := do
  let distance ← difference o w.base
  match narrow? distance with
  | some index => pure { w with bits := w.bits.insert index }
  | none => throw (.refused (.ackWindowOverflow o w.ackOffset))

theorem toNat_succ {a : UInt64} (h : a < lastOffset) : (a + 1).toNat = a.toNat + 1 := by
  have below := UInt64.lt_iff_toNat_lt.1 h
  rw [toNat_lastOffset] at below
  rw [UInt64.toNat_add]
  exact Nat.mod_eq_of_lt (Nat.add_lt_of_lt_sub below)

/-- Counts the ack offset up while its own bit is set. -/
def climb (w : Watermark) : Except Stop Watermark :=
  match difference w.ackOffset w.base with
  | .error stop => .error stop
  | .ok distance =>
    if (narrow? distance).any w.bits.contains then
      if w.ackOffset < lastOffset then climb { w with ackOffset := w.ackOffset + 1 }
      else .error .pastLast
    else .ok w
termination_by lastOffset.toNat - w.ackOffset.toNat
decreasing_by
  next below =>
    rw [toNat_succ below]
    have := UInt64.lt_iff_toNat_lt.1 below
    omega

/-- What is told when the ack offset has come from `before`. -/
def conclude (w : Watermark) (before : UInt64) (rebases : Nat) : Except Stop Commit :=
  if w.ackOffset = before then pure ⟨w, none, [], rebases⟩
  else do
    let distance ← difference w.ackOffset w.base
    if w.threshold ≤ distance then do
      let anchored ← w.reanchor
      pure ⟨anchored, some anchored.ackOffset, [anchored.ackOffset], rebases + 1⟩
    else pure ⟨w, some w.ackOffset, [w.ackOffset], rebases⟩

/-- Sets the bit of an offset and moves the ack offset. -/
def advance (w : Watermark) (o : UInt64) : Except Stop Commit := do
  let (roomy, rebases) ← w.makeRoom o
  let noted ← roomy.setBit o
  let moved ← noted.climb
  moved.conclude noted.ackOffset rebases

/-- Records the acknowledgment of an offset, in steps. -/
def stepped (w : Watermark) (o : UInt64) : Except Stop Commit :=
  if o < w.ackOffset then pure ⟨w, none, [], 0⟩
  else do
    let ahead ← difference o w.ackOffset
    if ahead.toNat < window then w.advance o
    else throw (.refused (.ackWindowOverflow o w.ackOffset))

variable {w : Watermark} {o : UInt64}

/-! ### Each step is the commit's -/

theorem difference_of_le {a b : UInt64} (h : b ≤ a) : difference a b = .ok (a - b) := if_pos h

theorem difference_of_not_le {a b : UInt64} (h : ¬ b ≤ a) :
    difference a b = .error (.negative a b) :=
  if_neg h

theorem ok_bind {α β : Type} (a : α) (f : α → Except Stop β) : (Except.ok a >>= f) = f a := rfl

theorem narrow?_of_lt {n : UInt64} (fits : n.toNat < Bitmap.range) :
    narrow? n = some (.ofNat n.toNat) := if_pos fits

theorem narrow?_of_not_lt {n : UInt64} (wide : ¬ n.toNat < Bitmap.range) : narrow? n = none :=
  if_neg wide

theorem any_narrow?_contains (n : UInt64) (b : Bitmap) :
    (narrow? n).any b.contains = b.has n.toNat := by
  by_cases fits : n.toNat < Bitmap.range
  · rw [narrow?_of_lt fits, Bitmap.has]
    simp [fits]
  · rw [narrow?_of_not_lt fits, Bitmap.has_of_not_lt fits]
    rfl

theorem dropBelow_of_range_le {b : Bitmap} {shift : Nat} (h : Bitmap.range ≤ shift) :
    b.dropBelow shift = ∅ := by
  refine Bitmap.ext fun j => ⟨fun hj => ?_, fun hj => absurd hj Std.ExtTreeSet.not_mem_empty⟩
  obtain ⟨i, -, hi⟩ := Bitmap.mem_dropBelow.1 hj
  have : i.toNat < Bitmap.range := i.toNat_lt
  omega

theorem reanchor_eq (h : w.base ≤ w.ackOffset) : w.reanchor = .ok w.rebase := by
  have shift := UInt64.toNat_sub_of_le _ _ h
  rw [reanchor, difference_of_le h, ok_bind, rebase, ← shift]
  by_cases fits : (w.ackOffset - w.base).toNat < Bitmap.range
  · rw [narrow?_of_lt fits]
    simp only [UInt32.toNat_ofNat_of_lt' fits]
    rfl
  · rw [narrow?_of_not_lt fits, dropBelow_of_range_le (Nat.not_lt.1 fits)]
    rfl

theorem makeRoom_eq (h : w.base ≤ o) (low : w.base ≤ w.ackOffset) :
    w.makeRoom o = .ok (w.anchored o) := by
  rw [makeRoom, difference_of_le h, ok_bind, anchored, ← UInt64.toNat_sub_of_le _ _ h]
  split
  · rfl
  · rw [reanchor_eq low, ok_bind]
    rfl

theorem makeRoom_of_near (h : w.base ≤ o) (near : o.toNat - w.base.toNat < Bitmap.range) :
    w.makeRoom o = .ok (w, 0) := by
  rw [← UInt64.toNat_sub_of_le _ _ h] at near
  rw [makeRoom, difference_of_le h, ok_bind, if_pos near]
  rfl

theorem setBit_eq (h : w.base ≤ o) (near : o.toNat - w.base.toNat < Bitmap.range) :
    w.setBit o = .ok (w.record o) := by
  have distance := UInt64.toNat_sub_of_le _ _ h
  rw [← distance] at near
  rw [setBit, difference_of_le h, ok_bind, record, ← distance, narrow?_of_lt near]
  rfl

/-- The ack offset has a bit of its own exactly if it is looked at. -/
theorem any_narrow?_iff (h : w.base ≤ w.ackOffset) :
    (narrow? (w.ackOffset - w.base)).any w.bits.contains = true ↔ w.marks w.ackOffset.toNat := by
  rw [any_narrow?_contains, UInt64.toNat_sub_of_le _ _ h, marks]
  simp [UInt64.le_iff_toNat_le.1 h]

/-- An ack offset with a bit of its own can be passed: the target is the same from the next word
on. -/
theorem target_succ (h : w.base ≤ w.ackOffset) (bit : w.marks w.ackOffset.toNat)
    (below : w.ackOffset < lastOffset) :
    w.base ≤ w.ackOffset + 1 ∧ target { w with ackOffset := w.ackOffset + 1 } = w.target := by
  have next := toNat_succ below
  have low : w.base ≤ w.ackOffset + 1 := by
    have := UInt64.le_iff_toNat_le.1 h
    rw [UInt64.le_iff_toNat_le, next]
    omega
  obtain ⟨le, gap, run⟩ := target_spec h
  refine ⟨low, target_eq low ?_ gap fun n hn => run n ?_⟩
  · have other : w.ackOffset.toNat ≠ w.target := fun same => gap (same ▸ bit)
    show (w.ackOffset + 1).toNat ≤ w.target
    omega
  · have : (w.ackOffset + 1).toNat ≤ n := hn
    omega

/-- Counting up reaches the target, unless that is no word. -/
theorem climb_eq (h : w.base ≤ w.ackOffset) :
    w.climb = if w.target < UInt64.size then .ok { w with ackOffset := .ofNat w.target }
      else .error .pastLast := by
  fun_induction climb w with
  | case1 w stop bad =>
    rw [difference_of_le h] at bad
    cases bad
  | case2 w distance ok bit below ih =>
    rw [difference_of_le h] at ok
    cases ok
    obtain ⟨low, same⟩ := target_succ h ((any_narrow?_iff h).1 bit) below
    rw [ih low, same]
  | case3 w distance ok bit top =>
    rw [difference_of_le h] at ok
    cases ok
    -- The ack offset is the last word and has a bit, so the gap lies past it.
    obtain ⟨le, gap, -⟩ := target_spec h
    have other : w.ackOffset.toNat ≠ w.target := fun same => gap (same ▸ (any_narrow?_iff h).1 bit)
    have last := UInt64.le_iff_toNat_le.1 (UInt64.not_lt.1 top)
    rw [toNat_lastOffset] at last
    rw [if_neg (by omega)]
  | case4 w distance ok noBit =>
    rw [difference_of_le h] at ok
    cases ok
    have here : w.target = w.ackOffset.toNat :=
      target_eq h (Nat.le_refl _) (mt (any_narrow?_iff h).2 noBit)
        fun n hn hlt => absurd hlt (Nat.not_lt.2 hn)
    rw [here, if_pos w.ackOffset.toNat_lt_size, UInt64.ofNat_toNat]

theorem climb_of_base_gt (h : ¬ w.base ≤ w.ackOffset) :
    w.climb = .error (.negative w.ackOffset w.base) := by
  rw [climb, difference_of_not_le h]

theorem conclude_eq {mark : UInt64} (rebases : Nat) (h : w.base ≤ mark) :
    conclude { w with ackOffset := mark } w.ackOffset rebases = .ok (w.settle mark rebases) := by
  unfold conclude settle
  by_cases still : mark = w.ackOffset
  · subst still
    rw [if_pos rfl, if_pos rfl]
    rfl
  · rw [if_neg still, if_neg still, difference_of_le h, ok_bind]
    by_cases behind : w.threshold ≤ mark - w.base
    · rw [if_pos behind, if_pos behind, reanchor_eq (w := { w with ackOffset := mark }) h, ok_bind]
      rfl
    · rw [if_neg behind, if_neg behind]
      rfl

/-! ### The commit in steps -/

theorem stepped_of_lt (stale : o < w.ackOffset) : w.stepped o = .ok ⟨w, none, [], 0⟩ := if_pos stale

theorem lt_window_iff (above : w.ackOffset ≤ o) :
    (o - w.ackOffset).toNat < window ↔ w.inWindow o = true := by
  have := UInt64.le_iff_toNat_le.1 above
  rw [inWindow_iff, UInt64.toNat_sub_of_le _ _ above]
  omega

theorem stepped_of_not_inWindow (outside : w.inWindow o = false) :
    w.stepped o = .error (.refused (.ackWindowOverflow o w.ackOffset)) := by
  have above : w.ackOffset ≤ o := by
    rw [Bool.eq_false_iff, ne_eq, inWindow_iff] at outside
    rw [UInt64.le_iff_toNat_le]
    omega
  have far : ¬ (o - w.ackOffset).toNat < window := by
    rw [lt_window_iff above, outside]
    exact Bool.false_ne_true
  rw [stepped, if_neg (UInt64.not_lt.2 above), difference_of_le above, ok_bind, if_neg far]
  rfl

theorem stepped_of_inWindow (above : w.ackOffset ≤ o) (inside : w.inWindow o = true) :
    w.stepped o = w.advance o := by
  rw [stepped, if_neg (UInt64.not_lt.2 above), difference_of_le above, ok_bind,
    if_pos ((lt_window_iff above).2 inside)]

/-- A commit inside the window: it ends as `Watermark.commit` does, or at the last word. -/
theorem stepped_eq_settle (h : w.base ≤ w.ackOffset) (above : w.ackOffset ≤ o)
    (inside : w.inWindow o = true) :
    w.stepped o =
      if ((w.anchored o).1.record o).target < UInt64.size then
        .ok (((w.anchored o).1.record o).settle (.ofNat ((w.anchored o).1.record o).target)
          (w.anchored o).2)
      else .error .pastLast := by
  obtain ⟨base, near, -, -⟩ := anchored_spec h above inside
  have noted := noted_record h above inside
  rw [stepped_of_inWindow above inside, advance, makeRoom_eq (UInt64.le_trans h above) h, ok_bind]
  generalize w.anchored o = a at *
  obtain ⟨roomy, rebases⟩ := a
  dsimp only at base near noted ⊢
  rw [setBit_eq (UInt64.le_trans base above) near, ok_bind, climb_eq noted.base_le]
  split
  next fits =>
    have mark : (roomy.record o).base ≤ .ofNat (roomy.record o).target := by
      have le := (target_spec noted.base_le).1
      have := UInt64.le_iff_toNat_le.1 noted.base_le
      rw [UInt64.le_iff_toNat_le, UInt64.toNat_ofNat_of_lt' fits]
      omega
    rw [ok_bind, conclude_eq rebases mark]
  next => rfl

/-- **The steps make the commit.** -/
theorem stepped_eq (w : Watermark) (o : UInt64) :
    (w.stepped o).mapError Stop.failure = w.commit o := by
  by_cases stale : o < w.ackOffset
  · rw [stepped_of_lt stale, commit_of_lt stale]
    rfl
  have above : w.ackOffset ≤ o := UInt64.not_lt.1 stale
  cases inside : w.inWindow o with
  | false =>
    rw [stepped_of_not_inWindow inside, commit_of_not_inWindow inside]
    rfl
  | true =>
    by_cases low : w.base ≤ w.ackOffset
    · rw [stepped_eq_settle low above inside, commit_eq_settle low above inside]
      split
      · rfl
      · rfl
    · -- The offset has no index, or it has one and the ack offset has none.
      rw [commit_of_base_gt low, if_neg stale, if_pos inside, stepped_of_inWindow above inside,
        advance]
      by_cases indexed : w.base ≤ o
      · have near : o.toNat - w.base.toNat < Bitmap.range := by
          have gt := UInt64.lt_iff_toNat_lt.1 (UInt64.not_le.1 low)
          have inside := inWindow_iff.1 inside
          have : window = Bitmap.range := rfl
          have : 0 < Bitmap.range := by decide
          omega
        rw [makeRoom_of_near indexed near, ok_bind]
        dsimp only
        rw [setBit_eq indexed near, ok_bind, climb_of_base_gt (w := w.record o) low]
        rfl
      · rw [makeRoom, difference_of_not_le indexed]
        rfl

/-! ### How a commit ends -/

/-- Every word from the ack offset on is recorded exactly if each of them is acknowledged. -/
theorem full_iff : w.Full o ↔ ∀ n, w.ackOffset ≤ n → n = o ∨ w.isAcked n = true := by
  constructor
  · intro full n hn
    refine (full n.toNat (UInt64.le_iff_toNat_le.1 hn) n.toNat_lt_size).imp UInt64.toNat_inj.1 ?_
    exact fun bit => isAcked_iff.2 (Or.inr bit)
  · intro full n hn hlt
    have number : (UInt64.ofNat n).toNat = n := UInt64.toNat_ofNat_of_lt' hlt
    have above : w.ackOffset ≤ .ofNat n := UInt64.le_iff_toNat_le.2 (number.symm ▸ hn)
    refine (full (.ofNat n) above).imp (fun same => by rw [← same, number]) fun acked => ?_
    rw [isAcked_iff, number] at acked
    exact acked.resolve_left (UInt64.not_lt.2 above)

/-- In a watermark whose base is not above the ack offset, a commit in steps succeeds, and then
neither the base passes the ack offset nor that falls, or the offset is refused, or every word from
the ack offset on would be recorded. -/
theorem stepped_cases (h : w.base ≤ w.ackOffset) (o : UInt64) :
    (∃ c, w.stepped o = .ok c ∧ c.next.base ≤ c.next.ackOffset ∧ w.ackOffset ≤ c.next.ackOffset) ∨
      w.stepped o = .error (.refused (.ackWindowOverflow o w.ackOffset)) ∨
      w.stepped o = .error .pastLast := by
  by_cases stale : o < w.ackOffset
  · exact Or.inl ⟨_, stepped_of_lt stale, h, UInt64.le_refl _⟩
  have above : w.ackOffset ≤ o := UInt64.not_lt.1 stale
  cases inside : w.inWindow o with
  | false => exact Or.inr (Or.inl (stepped_of_not_inWindow inside))
  | true =>
    have noted := noted_record h above inside
    have ends := stepped_eq_settle h above inside
    by_cases fits : ((w.anchored o).1.record o).target < UInt64.size
    · rw [if_pos fits] at ends
      obtain ⟨base, mark, -, -⟩ := settle_target noted.base_le fits (w.anchored o).2 rfl
      refine Or.inl ⟨_, ends, base, ?_⟩
      rw [UInt64.le_iff_toNat_le, mark, ← noted.ackOffset]
      exact (target_spec noted.base_le).1
    · rw [if_neg fits] at ends
      exact Or.inr (Or.inr ends)

/-- When the ack offset would have to pass the last word. -/
theorem stepped_eq_pastLast_iff (h : w.base ≤ w.ackOffset) :
    w.stepped o = .error .pastLast ↔
      w.ackOffset ≤ o ∧ w.inWindow o = true ∧ w.Full o := by
  by_cases stale : o < w.ackOffset
  · rw [stepped_of_lt stale]
    simp [UInt64.not_le.2 stale]
  have above : w.ackOffset ≤ o := UInt64.not_lt.1 stale
  cases inside : w.inWindow o with
  | false =>
    rw [stepped_of_not_inWindow inside]
    simp
  | true =>
    rw [stepped_eq_settle h above inside, (noted_record h above inside).full_iff]
    split
    next fits => simp [Nat.not_le.2 fits]
    next past => simp [above, Nat.not_lt.1 past]

/-- **Commits stay in the range of words up to its end.** A commit in steps is the commit. Start a
watermark anywhere, with any threshold, and commit any offsets, the last one included; where a
commit stops, go on from the state before it. Then the next commit never meets a negative
difference: it succeeds, with the base not above the ack offset and the ack offset not below the old
one, or refuses an offset outside the window, or asks for the word after the last one. The latter
happens exactly if the offset is in the window and leaves no word from the ack offset on
unacknowledged, and so never before the last offset itself has been committed. -/
theorem attempts_in_range (first threshold : UInt64) (os : List UInt64) (o : UInt64) :
    (∀ w p, (stepped w p).mapError Stop.failure = commit w p) ∧
    let w := (start first threshold).attempts os
    ((∃ c, w.stepped o = .ok c ∧ c.next.base ≤ c.next.ackOffset ∧ w.ackOffset ≤ c.next.ackOffset) ∨
      w.stepped o = .error (.refused (.ackWindowOverflow o w.ackOffset)) ∨
      w.stepped o = .error .pastLast) ∧
    (w.stepped o = .error .pastLast ↔
      w.ackOffset ≤ o ∧ ¬ w.Beyond o ∧ ∀ n, w.ackOffset ≤ n → n = o ∨ w.isAcked n = true) ∧
    ((∀ p ∈ o :: os, p < lastOffset) → w.stepped o ≠ .error .pastLast) := by
  refine ⟨stepped_eq, ?_⟩
  intro w
  have low : w.base ≤ w.ackOffset := base_le_attempts (UInt64.le_refl first) os
  refine ⟨stepped_cases low o, ?_, fun early ends => ?_⟩
  · rw [stepped_eq_pastLast_iff low, full_iff, beyond_iff, Bool.not_eq_false]
  · obtain ⟨-, -, full⟩ := (stepped_eq_pastLast_iff low).1 ends
    have sound : w.Sound :=
      ((collects_start first threshold).attempts fun p hp =>
        early p (List.mem_cons_of_mem o hp)).sound
    have top : w.ackOffset.toNat ≤ lastOffset.toNat := Nat.le_pred_of_lt w.ackOffset.toNat_lt_size
    rcases full lastOffset.toNat top lastOffset.toNat_lt_size with same | bit
    · have before := UInt64.lt_iff_toNat_lt.1 (early o List.mem_cons_self)
      exact absurd same.symm (Nat.ne_of_lt before)
    · exact absurd (sound.marks_lt _ bit) (Nat.lt_irrefl _)

/-- Started at the last offset, a watermark cannot take that offset: it is neither recorded nor
refused. -/
theorem attempts_past_last :
    let w := (start lastOffset 4).attempts []
    w.ackOffset ≤ lastOffset ∧ w.stepped lastOffset = .error .pastLast ∧
      w.commit lastOffset = .error .outOfRange := by
  intro w
  have low : w.base ≤ w.ackOffset := UInt64.le_refl _
  have stops : w.stepped lastOffset = .error .pastLast := by
    refine (stepped_eq_pastLast_iff low).2 ⟨UInt64.le_refl _, by decide, full_iff.2 fun n hn => ?_⟩
    exact Or.inl (UInt64.le_antisymm (Nat.le_pred_of_lt n.toNat_lt_size) hn)
  refine ⟨UInt64.le_refl _, stops, ?_⟩
  rw [← stepped_eq, stops]
  rfl

end QueueLedger.Watermark
