import Mathlib.Data.Set.Basic
import QueueLedger.Proofs.Watermark
/-!
# Watermarks as sets of offsets

Watched from outside, a watermark is a set of offsets: those from its first offset on whose
commit succeeded. The ack offset is the least offset that the set lacks, and an offset counts as
acknowledged if it lies below the first one or in the set. The base, the bitmap and the threshold
do not show.

## Proof shape

`Collects first s w` relates a watermark to the set `s`. It is kept by one commit
(`Collects.commit`), hence by any sequence of them (`Collects.attempts`). Two watermarks that
collect the same set have the same ack offset and the same acknowledged offsets
(`Collects.alike`), and answer the next commit alike (`Collects.told_eq`). So neither the
threshold nor the order of the commits can be told from outside.
-/

namespace QueueLedger.Watermark

/-! ### Sequences of commits -/

/-- The watermark after an attempt to record an offset. A refused one leaves it as it was. -/
def attempt (w : Watermark) (o : UInt64) : Watermark :=
  match w.commit o with
  | .ok c => c.next
  | .error _ => w

/-- The watermark after attempts to record some offsets, one after the other. -/
def attempts (w : Watermark) (os : List UInt64) : Watermark := os.foldl attempt w

/-- What the caller is given back, and what the listener hears. -/
def told (w : Watermark) (o : UInt64) : Except Failure (Option UInt64 × List UInt64) :=
  (w.commit o).map fun c => (c.advanced, c.heard)

/-- What is told at each of some attempts. -/
def tellings (w : Watermark) : List UInt64 → List (Except Failure (Option UInt64 × List UInt64))
  | [] => []
  | o :: os => w.told o :: tellings (w.attempt o) os

/-- The offsets whose attempts succeeded. -/
def recorded (w : Watermark) : List UInt64 → List UInt64
  | [] => []
  | o :: os =>
    match w.commit o with
    | .ok _ => o :: recorded (w.attempt o) os
    | .error _ => recorded (w.attempt o) os

/-- The offsets from `first` on whose attempts succeeded, in a watermark that starts there. -/
def acknowledged (first threshold : UInt64) (os : List UInt64) : Set UInt64 :=
  {o | first ≤ o ∧ o ∈ (start first threshold).recorded os}

/-- Two watermarks that cannot be told apart by looking at them. -/
def Alike (w w' : Watermark) : Prop :=
  w.ackOffset = w'.ackOffset ∧ ∀ o, w.isAcked o = w'.isAcked o

@[simp] theorem attempts_cons (w : Watermark) (o : UInt64) (os : List UInt64) :
    w.attempts (o :: os) = (w.attempt o).attempts os := rfl

theorem attempt_of_ok {w : Watermark} {o : UInt64} {c : Commit} (h : w.commit o = .ok c) :
    w.attempt o = c.next := by
  rw [attempt, h]

theorem attempt_of_error {w : Watermark} {o : UInt64} {e : Failure} (h : w.commit o = .error e) :
    w.attempt o = w := by
  rw [attempt, h]

/-- What a successful commit keeps, a sequence of attempts keeps. -/
theorem attempts_keep {P : Watermark → Prop} {w : Watermark} (init : P w)
    (step : ∀ {w o c}, P w → w.commit o = .ok c → P c.next) (os : List UInt64) :
    P (w.attempts os) := by
  induction os generalizing w with
  | nil => exact init
  | cons o os ih =>
    rw [attempts_cons]
    refine ih ?_
    cases ends : w.commit o with
    | error e =>
      rw [attempt_of_error ends]
      exact init
    | ok c =>
      rw [attempt_of_ok ends]
      exact step init ends

theorem base_le_attempts {w : Watermark} (h : w.base ≤ w.ackOffset) (os : List UInt64) :
    (w.attempts os).base ≤ (w.attempts os).ackOffset :=
  attempts_keep (P := fun w => w.base ≤ w.ackOffset) h base_le_of_commit os

theorem threshold_attempts (w : Watermark) (os : List UInt64) :
    (w.attempts os).threshold = w.threshold :=
  attempts_keep (P := fun w' => w'.threshold = w.threshold) rfl
    (fun same ok => (commit_told ok).1.trans same) os

/-! ### A watermark and the set that it stands for -/

/-- The watermark stands for the set `s` of offsets from `first` on. -/
structure Collects (first : UInt64) (s : Set UInt64) (w : Watermark) : Prop where
  /-- The state is one that commits work on. -/
  sound : w.Sound
  /-- The ack offset is not below the first offset. -/
  first_le : first ≤ w.ackOffset
  /-- The set has nothing below the first offset. -/
  le_mem : ∀ o ∈ s, first ≤ o
  /-- From the first offset up to the ack offset everything is in the set. -/
  mem_of_lt : ∀ o, first ≤ o → o < w.ackOffset → o ∈ s
  /-- From the ack offset on, the bits are the set. -/
  marks_iff : ∀ o, w.ackOffset ≤ o → (w.marks o.toNat ↔ o ∈ s)
  /-- The ack offset is not in the set. -/
  ackOffset_notMem : w.ackOffset ∉ s

theorem collects_start (first threshold : UInt64) :
    Collects first ∅ (start first threshold) where
  sound := sound_start first threshold
  first_le := UInt64.le_refl _
  le_mem _ h := h.elim
  mem_of_lt _ hle hlt := absurd hlt (UInt64.not_lt.2 hle)
  marks_iff _ _ := ⟨fun h => absurd h (not_marks_start first threshold _), fun h => h.elim⟩
  ackOffset_notMem h := h

variable {first : UInt64} {s : Set UInt64} {w w' : Watermark} {o : UInt64}

/-- The ack offset is the least offset that the set lacks. -/
theorem Collects.isLeast (h : Collects first s w) :
    IsLeast {n | first ≤ n ∧ n ∉ s} w.ackOffset := by
  refine ⟨⟨h.first_le, h.ackOffset_notMem⟩, ?_⟩
  intro n h
  obtain ⟨hfirst, hn⟩ := h
  refine UInt64.not_lt.1 fun below => hn ?_
  exact h.mem_of_lt n hfirst below

/-- The acknowledged offsets are those below the first one and those of the set. -/
theorem Collects.isAcked_iff (h : Collects first s w) (o : UInt64) :
    w.isAcked o = true ↔ o < first ∨ o ∈ s := by
  rw [Watermark.isAcked_iff]
  by_cases below : o < w.ackOffset
  · have mem : o < first ∨ o ∈ s := by
      by_cases early : o < first
      · exact Or.inl early
      · exact Or.inr (h.mem_of_lt o (UInt64.not_lt.1 early) below)
    exact iff_of_true (Or.inl below) mem
  · have above : w.ackOffset ≤ o := UInt64.not_lt.1 below
    have late : ¬ o < first := UInt64.not_lt.2 (UInt64.le_trans h.first_le above)
    rw [h.marks_iff o above]
    simp [below, late]

/-- What stands for the same set looks the same. -/
theorem Collects.alike (h : Collects first s w) (h' : Collects first s w') : Alike w w' := by
  constructor
  · exact UInt64.le_antisymm (h.isLeast.2 h'.isLeast.1) (h'.isLeast.2 h.isLeast.1)
  · intro o
    rw [Bool.eq_iff_iff, h.isAcked_iff, h'.isAcked_iff]

theorem Collects.congr {s' : Set UInt64} (h : Collects first s w) (eq : ∀ n, n ∈ s ↔ n ∈ s') :
    Collects first s' w := by
  rwa [← Set.ext eq]

/-- A commit that succeeds adds its offset to the set, unless that lies below the first one. -/
theorem Collects.commit (h : Collects first s w) (ho : o < lastOffset) {c : Commit}
    (ok : w.commit o = .ok c) : Collects first {n | n ∈ s ∨ (first ≤ n ∧ n = o)} c.next := by
  rcases commit_cases h.sound ho with ⟨stale, eq⟩ | ⟨above, -, c', eq, rec⟩ | ⟨-, eq⟩
  · -- A stale offset is in the set already, or lies below the first one.
    rw [eq] at ok
    cases ok
    refine h.congr fun n => ⟨Or.inl, ?_⟩
    intro h
    rcases h with mem | ⟨hn, rfl⟩
    · exact mem
    · exact h.mem_of_lt n hn stale
  · rw [eq] at ok
    cases ok
    have hfirst : first ≤ o := UInt64.le_trans h.first_le above
    have marked (n : UInt64) (hn : w.ackOffset ≤ n) :
        n.toNat = o.toNat ∨ w.marks n.toNat ↔ n ∈ s ∨ (first ≤ n ∧ n = o) := by
      rw [h.marks_iff n hn, UInt64.toNat_inj]
      constructor
      · intro h
        rcases h with rfl | mem
        · exact Or.inr ⟨hfirst, rfl⟩
        · exact Or.inl mem
      · intro h
        rcases h with mem | ⟨-, rfl⟩
        · exact Or.inr mem
        · exact Or.inl rfl
    have pending (n : UInt64) (hn : c.next.ackOffset ≤ n) :
        c.next.marks n.toNat ↔ n ∈ s ∨ (first ≤ n ∧ n = o) := by
      rw [rec.pending n.toNat (UInt64.le_iff_toNat_le.1 hn)]
      exact marked n (UInt64.le_trans rec.le hn)
    refine ⟨rec.sound, UInt64.le_trans h.first_le rec.le, ?_, ?_, pending, ?_⟩
    · intro n h
      rcases h with mem | ⟨hn, -⟩
      · exact h.le_mem n mem
      · exact hn
    · intro n hn hlt
      by_cases early : n < w.ackOffset
      · exact Or.inl (h.mem_of_lt n hn early)
      · have late : w.ackOffset ≤ n := UInt64.not_lt.1 early
        exact (marked n late).1 (rec.passed n.toNat (UInt64.le_iff_toNat_le.1 late)
          (UInt64.lt_iff_toNat_lt.1 hlt))
    · exact fun mem => rec.gap ((pending _ (UInt64.le_refl _)).2 mem)
  · rw [eq] at ok
    cases ok

/-- Any sequence of attempts adds to the set what they recorded. -/
theorem Collects.attempts {os : List UInt64} (h : Collects first s w)
    (hos : ∀ o ∈ os, o < lastOffset) :
    Collects first {n | n ∈ s ∨ (first ≤ n ∧ n ∈ w.recorded os)} (w.attempts os) := by
  induction os generalizing w s with
  | nil => exact h.congr fun n => by simp [recorded]
  | cons o os ih =>
    have rest : ∀ p ∈ os, p < lastOffset := fun p hp => hos p (List.mem_cons_of_mem o hp)
    rw [attempts_cons, recorded]
    cases hc : w.commit o with
    | error e =>
      rw [attempt_of_error hc]
      exact ih h rest
    | ok c =>
      rw [attempt_of_ok hc]
      refine (ih (h.commit (hos o List.mem_cons_self) hc) rest).congr fun n => ?_
      simp only [Set.mem_ofPred_eq, List.mem_cons, or_assoc, and_or_left]

/-! ### What is told -/

/-- Whether an offset lies so far above the ack offset that it cannot be recorded. -/
def Beyond (w : Watermark) (o : UInt64) : Prop :=
  w.ackOffset < o ∧ 0xffffffff < o - w.ackOffset

instance (w : Watermark) (o : UInt64) : Decidable (w.Beyond o) :=
  inferInstanceAs (Decidable (_ ∧ _))

theorem beyond_iff : w.Beyond o ↔ w.inWindow o = false := by
  have hwindow : window = 0xffffffff + 1 := rfl
  rw [Bool.eq_false_iff, ne_eq, inWindow_iff, Beyond]
  constructor
  · intro h
    obtain ⟨above, far⟩ := h
    intro inside
    have above := UInt64.lt_iff_toNat_lt.1 above
    have far := UInt64.lt_iff_toNat_lt.1 far
    rw [UInt64.toNat_sub_of_le _ _ (UInt64.le_iff_toNat_le.2 (by omega))] at far
    have : (0xffffffff : UInt64).toNat = 0xffffffff := rfl
    omega
  · intro outside
    have above : w.ackOffset < o := UInt64.lt_iff_toNat_lt.2 (by omega)
    refine ⟨above, ?_⟩
    rw [UInt64.lt_iff_toNat_lt, UInt64.toNat_sub_of_le _ _ (UInt64.le_of_lt above)]
    have : (0xffffffff : UInt64).toNat = 0xffffffff := rfl
    omega

/-- What an attempt answers, told by the ack offset before and after. An offset beyond the window
is refused and nothing changes. Any other one is taken, and the new ack offset is given back, and
heard once, exactly if it differs from the old one. -/
def AnswersByMove (w : Watermark) (o : UInt64) : Prop :=
  if w.Beyond o then w.commit o = .error (.ackWindowOverflow o w.ackOffset) ∧ w.attempt o = w
  else ∃ c, w.commit o = .ok c ∧ w.attempt o = c.next ∧
    if c.next.ackOffset = w.ackOffset then c.advanced = none ∧ c.heard = []
    else c.advanced = some c.next.ackOffset ∧ c.heard = [c.next.ackOffset]

theorem Sound.answersByMove (sound : w.Sound) (ho : o < lastOffset) : w.AnswersByMove o := by
  unfold AnswersByMove
  split
  next far =>
    have refused := commit_of_not_inWindow (beyond_iff.1 far)
    exact ⟨refused, attempt_of_error refused⟩
  next near =>
    rcases commit_cases sound ho with ⟨-, eq⟩ | ⟨-, -, c, eq, rec⟩ | ⟨outside, -⟩
    · exact ⟨_, eq, attempt_of_ok eq, by rw [if_pos rfl]; exact ⟨rfl, rfl⟩⟩
    · exact ⟨c, eq, attempt_of_ok eq, rec.told⟩
    · exact absurd (beyond_iff.2 outside) near

/-- What stands for the same set answers the next attempt alike, and stands for the same set
after it. -/
theorem Collects.told_eq (h : Collects first s w) (h' : Collects first s w')
    (ho : o < lastOffset) :
    w.told o = w'.told o ∧
      ∃ s', Collects first s' (w.attempt o) ∧ Collects first s' (w'.attempt o) := by
  have same : w.ackOffset = w'.ackOffset := (h.alike h').1
  have beyond : w.Beyond o ↔ w'.Beyond o := by rw [Beyond, Beyond, same]
  have answer := h.sound.answersByMove ho
  have answer' := h'.sound.answersByMove ho
  unfold AnswersByMove at answer answer'
  by_cases far : w.Beyond o
  · rw [if_pos far] at answer
    rw [if_pos (beyond.1 far)] at answer'
    rw [told, told, answer.1, answer'.1, answer.2, answer'.2, same]
    exact ⟨rfl, s, h, h'⟩
  · rw [if_neg far] at answer
    rw [if_neg (mt beyond.2 far)] at answer'
    obtain ⟨c, eq, next, move⟩ := answer
    obtain ⟨c', eq', next', move'⟩ := answer'
    have kept := h.commit ho eq
    have kept' := h'.commit ho eq'
    rw [(kept.alike kept').1, same] at move
    rw [next, next']
    refine ⟨?_, _, kept, kept'⟩
    rw [told, told, eq, eq']
    split at move
    next still =>
      rw [if_pos still] at move'
      simp only [Except.map, move, move']
    next moved =>
      rw [if_neg moved] at move'
      simp only [Except.map, move, move']

theorem told_error_iff {e : Failure} : w.told o = .error e ↔ w.commit o = .error e := by
  unfold told
  cases w.commit o with
  | error e' => simp [Except.map]
  | ok c => simp [Except.map]

/-- What stands for the same set tells the same and records the same from then on. -/
theorem Collects.tellings_eq {os : List UInt64} (h : Collects first s w)
    (h' : Collects first s w') (hos : ∀ o ∈ os, o < lastOffset) :
    w.tellings os = w'.tellings os ∧ w.recorded os = w'.recorded os := by
  induction os generalizing w w' s with
  | nil => exact ⟨rfl, rfl⟩
  | cons o os ih =>
    obtain ⟨told, s', kept, kept'⟩ := h.told_eq h' (hos o List.mem_cons_self)
    obtain ⟨later, record⟩ := ih kept kept' fun p hp => hos p (List.mem_cons_of_mem o hp)
    refine ⟨by rw [tellings, tellings, told, later], ?_⟩
    have failing (e : Failure) : w.commit o = .error e ↔ w'.commit o = .error e := by
      rw [← told_error_iff, ← told_error_iff, told]
    rw [recorded, recorded, record]
    cases hc : w.commit o with
    | error e => rw [(failing e).1 hc]
    | ok c =>
      cases hc' : w'.commit o with
      | error e => rw [(failing e).2 hc'] at hc; cases hc
      | ok c' => rfl

/-- Offsets inside the window are all recorded, whatever their order. -/
theorem Sound.recorded_eq {os : List UInt64} (sound : w.Sound) (hos : ∀ o ∈ os, o < lastOffset)
    (inside : ∀ o ∈ os, w.inWindow o = true) : w.recorded os = os := by
  induction os generalizing w with
  | nil => rfl
  | cons o os ih =>
    have ho := hos o List.mem_cons_self
    obtain ⟨c, ok⟩ := sound.commit_ok ho (inside o List.mem_cons_self)
    obtain ⟨sound', le⟩ := sound.commit ho ok
    rw [recorded, ok, attempt_of_ok ok]
    show o :: c.next.recorded os = o :: os
    rw [ih sound' (fun p hp => hos p (List.mem_cons_of_mem o hp))
      fun p hp => inWindow_mono le (inside p (List.mem_cons_of_mem o hp))]

/-! ### The main statement -/

/-- **A watermark is a set of offsets.** Start one at any offset with any threshold and commit any
offsets before the last one. Then the ack offset is the least offset that was not recorded, exactly
what was recorded or lies below the start counts as acknowledged, and the next attempt is answered
as `AnswersByMove` says. A watermark with another threshold tells the same all along and looks the
same, and so does one that recorded the same offsets in another order; offsets inside the first
window can be recorded in every order. -/
theorem attempts_collect (first threshold : UInt64) (os : List UInt64)
    (hos : ∀ o ∈ os, o < lastOffset) :
    let w := (start first threshold).attempts os
    IsLeast {n | first ≤ n ∧ n ∉ acknowledged first threshold os} w.ackOffset ∧
      (∀ o, w.isAcked o = true ↔ o < first ∨ o ∈ acknowledged first threshold os) ∧
      (∀ o, o < lastOffset → w.AnswersByMove o) ∧
      (∀ threshold', (start first threshold').tellings os = (start first threshold).tellings os ∧
        Alike ((start first threshold').attempts os) w) ∧
      ((∀ o ∈ os, (start first threshold).inWindow o = true) →
        (start first threshold).recorded os = os) ∧
      ∀ os', os'.Perm os → (start first threshold).recorded os = os →
        (start first threshold).recorded os' = os' →
        Alike ((start first threshold).attempts os') w := by
  have collects (t : UInt64) (ps : List UInt64) (hps : ∀ o ∈ ps, o < lastOffset) :
      Collects first (acknowledged first t ps) ((start first t).attempts ps) :=
    ((collects_start first t).attempts hps).congr fun n => by simp [acknowledged]
  have here := collects threshold os hos
  refine ⟨here.isLeast, here.isAcked_iff, fun o ho => here.sound.answersByMove ho, ?_, ?_, ?_⟩
  · intro threshold'
    obtain ⟨tell, record⟩ := (collects_start first threshold').tellings_eq
      (collects_start first threshold) hos
    refine ⟨tell, ((collects threshold' os hos).congr fun n => ?_).alike here⟩
    rw [acknowledged, acknowledged, record]
  · exact (sound_start first threshold).recorded_eq hos
  · intro os' perm all all'
    have hos' : ∀ o ∈ os', o < lastOffset := fun o ho => hos o (perm.mem_iff.1 ho)
    refine ((collects threshold os' hos').congr fun n => ?_).alike here
    simp only [acknowledged, all, all', Set.mem_ofPred_eq, perm.mem_iff]

/-- The offsets 4, 5 and 6 out of order, then the farthest one inside the window and the next. -/
theorem attempts_collect_far :
    (∀ o ∈ [5, 6, 4, 4294967302, 4294967303], o < lastOffset) ∧
      IsLeast {n | 4 ≤ n ∧ n ∉ acknowledged 4 2 [5, 6, 4, 4294967302, 4294967303]} 7 := by
  have bound : ∀ o ∈ [5, 6, 4, 4294967302, 4294967303], o < lastOffset := by simp [lastOffset]
  have mark : ((start 4 2).attempts [5, 6, 4, 4294967302, 4294967303]).ackOffset = 7 := by
    decide +kernel
  refine ⟨bound, ?_⟩
  rw [← mark]
  exact (attempts_collect 4 2 _ bound).1

end QueueLedger.Watermark
