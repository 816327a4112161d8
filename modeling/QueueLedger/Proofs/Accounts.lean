import Mathlib.Order.ConditionallyCompleteLattice.Basic
import QueueLedger.Proofs.AcknowledgedSet
import QueueLedger.Proofs.Atomicity
import QueueLedger.Proofs.CheckPointTable
import QueueLedger.Proofs.GroupImages
/-!
# What the counters stand for

The four counters of a group are a summary of two sets of offsets on each path: those that were
delivered, and those that are covered, by an end mark or by an acknowledgment. The consume offset
is one past the greatest delivered offset, and the ack offset is the least offset that is not
covered (`Ledger.Accounts`).

## Proof shape

A replay adds to both sets what its operation delivers and covers, whatever the sets were before
(`Ledger.Accounts.replay`). It cannot fail half way while it records a batch, since the window of
the batch was checked. What the sets are over a whole run is left to those who follow the run.
-/

namespace QueueLedger

/-- Zero, and the offsets that come next after those of a set. -/
def nexts (s : Set UInt64) : Set Nat := insert 0 ((fun o => o.toNat + 1) '' s)

namespace Operation

/-- The offset up to which an operation delivers to a group on a path. -/
def delivers : Operation → UInt64 → Path → Set UInt64
  | pop p, g, path => {o | g = p.group ∧ path = p.kind.path ∧ o = p.offset}
  | _, _, _ => ∅

/-- The offsets of a group and a path that an operation covers, when some deliveries are in flight:
those of a pop with an end mark, and those of a delivery that is acknowledged, unless that is an
ordered one that expired. -/
def covers (live : Set CheckPoint) : Operation → UInt64 → Path → Set UInt64
  | pop p, g, path =>
    {o | p.endMark = true ∧ g = p.group ∧ path = p.kind.path ∧ o ∈ p.batch.offsets}
  | ack a, g, path =>
    {o | ∃ c ∈ live, c.operation = a.target ∧ g = c.group ∧ path = c.kind.path ∧
      ¬ (c.kind = .order ∧ a.kind = .timeout) ∧ o ∈ c.batch.offsets}
  | renewal _, _, _ => ∅

end Operation

/-- Sets of offsets by group and path, with more offsets for one group on one path. -/
def plus (s : UInt64 → Path → Set UInt64) (g : UInt64) (path : Path) (new : Set UInt64) :
    UInt64 → Path → Set UInt64 :=
  fun g' path' => {o | o ∈ s g' path' ∨ (g' = g ∧ path' = path ∧ o ∈ new)}

theorem plus_empty (s : UInt64 → Path → Set UInt64) (g : UInt64) (path : Path) :
    plus s g path ∅ = s := by
  funext g' path'
  simp [plus]

namespace Group

/-- Recording acknowledgments delivers nothing. -/
theorem consumed_commit {s s' : Group} {path : Path} {o : UInt64} {c : Watermark.Commit}
    (ok : s.commit path o = .ok (s', c)) (other : Path) :
    s'.counters.consumed other = s.counters.consumed other := by
  unfold commit at ok
  cases hc : (s.watermark path).commit o with
  | error e =>
    rw [hc] at ok
    cases ok
  | ok c' =>
    rw [hc] at ok
    dsimp only at ok
    cases moved : c'.advanced with
    | none =>
      rw [moved] at ok
      cases ok
      simp
    | some mark =>
      rw [moved] at ok
      cases ok
      simp

end Group

namespace Ledger

/-- The counters stand for the offsets that were delivered and those that are covered. -/
structure Accounts (l : Ledger) (delivered covered : UInt64 → Path → Set UInt64) : Prop where
  /-- The ack offsets are those of the watermarks. -/
  tracked : l.Tracked
  /-- A consume offset is one past the greatest delivered offset. -/
  consumed : ∀ g path, IsGreatest (nexts (delivered g path)) ((l.counters g).consumed path).toNat
  /-- A watermark stands for what is covered. -/
  collects : ∀ g path, Watermark.Collects 0 (covered g path) ((l.group g).watermark path)
  /-- The last offset is not delivered. -/
  delivered_lt : ∀ g path, ∀ o ∈ delivered g path, o < lastOffset

namespace Accounts

variable {l l' : Ledger} {delivered covered : UInt64 → Path → Set UInt64} {g : UInt64} {path : Path}
  {o : UInt64}

theorem empty (queue : QueueId) (config : Config) :
    (Ledger.empty queue config).Accounts (fun _ _ => ∅) (fun _ _ => ∅) where
  tracked := tracked_empty queue config
  consumed g path := by cases path <;> simp [nexts, GroupCounters.zero, GroupCounters.consumed]
  collects g path := by
    rw [group_empty]
    cases path <;> exact Watermark.collects_start 0 config.rebaseThreshold
  delivered_lt _ _ _ h := h.elim

/-- The groups are all that matters. -/
theorem congr (h : l.Accounts delivered covered) (groups : l'.groups = l.groups)
    (config : l'.config = l.config) : l'.Accounts delivered covered := by
  have group (g : UInt64) : l'.group g = l.group g := by
    rw [Ledger.group, Ledger.group, groups, config]
  refine ⟨?_, fun g path => ?_, fun g path => ?_, h.delivered_lt⟩
  · intro g s known
    rw [groups] at known
    rw [config]
    exact h.tracked g s known
  · rw [counters, group]
    exact h.consumed g path
  · rw [group]
    exact h.collects g path

/-- The ack offset is the least offset that is not covered. -/
theorem acked (h : l.Accounts delivered covered) (g : UInt64) (path : Path) :
    IsLeast {o | o ∉ covered g path} ((l.counters g).acked path) := by
  have least := (h.collects g path).isLeast
  rw [counters, (h.tracked.group g).acked path]
  simpa using least

/-- What is delivered raises the consume offset. -/
theorem deliver (h : l.Accounts delivered covered) (ho : o < lastOffset) (g : UInt64)
    (path : Path) : (l.deliver g path o).Accounts (plus delivered g path {o}) covered where
  tracked := h.tracked.deliver g path o
  consumed g' path' := by
    rw [counters, Ledger.deliver, group_withGroup]
    by_cases here : g' = g ∧ path' = path
    · obtain ⟨rfl, rfl⟩ := here
      have next : (satAdd o 1).toNat = o.toNat + 1 := by
        have := UInt64.lt_iff_toNat_lt.1 ho
        rw [toNat_lastOffset] at this
        rw [toNat_satAdd, show (1 : UInt64).toNat = 1 from rfl]
        omega
      have more : nexts (plus delivered g' path' {o} g' path') =
          insert (o.toNat + 1) (nexts (delivered g' path')) := by
        ext n
        simp [nexts, plus]
        grind
      rw [if_pos rfl, more, Group.advance]
      simp only [GroupCounters.consumed_advance, if_true, UInt64.toNat_max, next]
      rw [Nat.max_comm]
      exact (h.consumed g' path').insert (o.toNat + 1)
    · have same : plus delivered g path {o} g' path' = delivered g' path' := by
        ext n
        simp only [plus, Set.mem_ofPred_eq]
        grind
      rw [same]
      split
      next eq =>
        subst eq
        have other : ¬ path = path' := fun eq => here ⟨rfl, eq.symm⟩
        simp only [Group.advance, GroupCounters.consumed_advance, if_neg other]
        exact h.consumed g path'
      next => exact h.consumed g' path'
  collects g' path' := by
    rw [Ledger.deliver, group_withGroup]
    split
    next eq =>
      subst eq
      rw [Group.watermark_advance]
      exact h.collects g path'
    next => exact h.collects g' path'
  delivered_lt g' path' o' h' := by
    rcases h' with old | ⟨-, -, rfl⟩
    · exact h.delivered_lt g' path' o' old
    · exact ho

/-- Recording an offset inside the window covers it. -/
theorem commit (h : l.Accounts delivered covered) (ho : o < lastOffset)
    (inside : ((l.group g).watermark path).inWindow o = true) :
    ∃ l' c, l.commit g path o = .ok (l', c) ∧ l'.Accounts delivered (plus covered g path {o}) ∧
      ((l.group g).watermark path).ackOffset ≤ ((l'.group g).watermark path).ackOffset := by
  have sound := (h.collects g path).sound
  obtain ⟨c, ok⟩ := sound.commit_ok ho inside
  obtain ⟨s, done, marks⟩ := Group.commit_of_watermark ok
  refine ⟨l.withGroup g s, c, by rw [Ledger.commit, done], ?_, ?_⟩
  · refine ⟨h.tracked.withGroup ((h.tracked.group g).commit done), fun g' path' => ?_,
      fun g' path' => ?_, h.delivered_lt⟩
    · rw [counters, group_withGroup]
      split
      next eq =>
        subst eq
        rw [Group.consumed_commit done]
        exact h.consumed g path'
      next => exact h.consumed g' path'
    · rw [group_withGroup]
      by_cases here : g' = g ∧ path' = path
      · obtain ⟨rfl, rfl⟩ := here
        rw [if_pos rfl, marks, if_pos rfl]
        exact ((h.collects g' path').commit ho ok).congr fun n => by simp [plus]
      · have same : plus covered g path {o} g' path' = covered g' path' := by
          ext n
          simp only [plus, Set.mem_ofPred_eq]
          grind
        rw [same]
        split
        next eq =>
          subst eq
          rw [marks, if_neg fun eq => here ⟨rfl, eq.symm⟩]
          exact h.collects g path'
        next => exact h.collects g' path'
  · rw [group_withGroup, if_pos rfl, marks, if_pos rfl]
    exact (sound.commit ho ok).2

/-- Recording offsets that are all inside the window covers them. -/
theorem commitEach {os : List UInt64} (h : l.Accounts delivered covered)
    (hos : ∀ o ∈ os, o < lastOffset)
    (inside : ∀ o ∈ os, ((l.group g).watermark path).inWindow o = true) :
    ∃ l', l.commitEach g path os = (.ok (), l') ∧
      l'.Accounts delivered (plus covered g path {o | o ∈ os}) := by
  induction os generalizing l covered with
  | nil =>
    refine ⟨l, rfl, ?_⟩
    rw [show {o : UInt64 | o ∈ []} = ∅ by ext; simp, plus_empty]
    exact h
  | cons o os ih =>
    obtain ⟨l₁, c, ok, h₁, le⟩ := h.commit (hos o List.mem_cons_self) (inside o List.mem_cons_self)
    obtain ⟨l₂, rest, h₂⟩ := ih h₁ (fun p hp => hos p (List.mem_cons_of_mem o hp))
      fun p hp => Watermark.inWindow_mono le (inside p (List.mem_cons_of_mem o hp))
    refine ⟨l₂, by rw [Ledger.commitEach, ok]; exact rest, ?_⟩
    have all : plus (plus covered g path {o}) g path {p | p ∈ os} =
        plus covered g path {p | p ∈ o :: os} := by
      funext g' path'
      ext n
      simp only [plus, Set.mem_ofPred_eq, Set.mem_singleton_iff, List.mem_cons]
      grind
    rw [← all]
    exact h₂

/-- Settling a batch whose window was checked covers it. -/
theorem settle (h : l.Accounts delivered covered) {b : Batch} (last : b.last < lastOffset)
    (inside : ∀ o ∈ b.offsets, ((l.group g).watermark path).inWindow o = true) (id : UInt64)
    (requests : List Request) :
    (l.settle id g path b requests).outcome = .ok () ∧
      (l.settle id g path b requests).ledger.Accounts delivered
        (plus covered g path {o | o ∈ b.offsets}) := by
  obtain ⟨l', ok, h'⟩ := h.commitEach
    (fun o ho => UInt64.lt_of_le_of_lt (Batch.mem_offsets.1 ho).2 last) inside
  rw [Ledger.settle, ok]
  exact ⟨rfl, h'.congr rfl rfl⟩

/-- A pop delivers one offset, and covers its batch if it has an end mark. -/
theorem pop {p : Pop} {live : Set CheckPoint} {r : Rows} {id : UInt64} {d : Decision}
    (h : l.Accounts delivered covered) (ends : p.offset < lastOffset)
    (decided : popDecision id p l r = .ok d) :
    d.outcome = .ok () ∧ d.ledger.Accounts (delivered ⊔ (Operation.pop p).delivers)
      (covered ⊔ (Operation.pop p).covers live) := by
  have after := h.deliver ends p.group p.kind.path
  rw [show plus delivered p.group p.kind.path {p.offset} = delivered ⊔ (Operation.pop p).delivers
    from rfl] at after
  obtain ⟨-, -, ⟨mark, checked, rfl⟩ | ⟨mark, -, rfl⟩⟩ := popDecision_eq_ok decided
  · have covers : covered ⊔ (Operation.pop p).covers live =
        plus covered p.group p.kind.path {o | o ∈ p.batch.offsets} := by
      funext g path
      ext o
      simp [plus, Operation.covers, mark]
    rw [covers]
    refine after.settle (b := p.batch) ends (fun o ho => ?_) id []
    rw [watermark_deliver]
    exact inWindow_of_checkWindow checked o ho
  · have covers : covered ⊔ (Operation.pop p).covers live = covered := by
      funext g path
      ext o
      simp [Operation.covers, mark]
    rw [covers]
    exact ⟨rfl, after.congr rfl rfl⟩

/-- An acknowledgment covers the batch of its delivery, if it feeds a path at all. -/
theorem ack {a : Ack} {live : Set CheckPoint} {r : Rows} {id : UInt64} {d : Decision}
    (h : l.Accounts delivered covered) (filed : Filed l.config l.queue r live)
    (known : ∀ c ∈ live, c.offset ∈ delivered c.group c.kind.path)
    (decided : ackDecision id a l r = .ok d) :
    d.outcome = .ok () ∧
      d.ledger.Accounts delivered (covered ⊔ (Operation.ack a).covers live) := by
  obtain ⟨-, c, found, decided⟩ := ackDecision_eq_ok decided
  obtain ⟨hc, target⟩ := filed.mem_of_found found
  have covers (g : UInt64) (path : Path) (o : UInt64) :
      o ∈ (Operation.ack a).covers live g path ↔
        g = c.group ∧ settlingPath c.kind a.kind = some path ∧ o ∈ c.batch.offsets := by
    constructor
    · rintro ⟨c', hc', target', rfl, rfl, route, ho⟩
      -- No other delivery in flight has the operation id that is acknowledged.
      obtain rfl := filed.eq_of_operation hc' hc (target'.trans target.symm)
      exact ⟨rfl, settlingPath_eq_some_iff.2 ⟨rfl, route⟩, ho⟩
    · rintro ⟨rfl, some, ho⟩
      obtain ⟨rfl, route⟩ := settlingPath_eq_some_iff.1 some
      exact ⟨c, hc, target, rfl, rfl, route, ho⟩
  rcases decided with ⟨none, rfl⟩ | ⟨path, some, checked, rfl⟩
  · have nothing : covered ⊔ (Operation.ack a).covers live = covered := by
      funext g path
      ext o
      simp [covers, none]
    rw [nothing]
    exact ⟨rfl, h.congr rfl rfl⟩
  · have batch : covered ⊔ (Operation.ack a).covers live =
        plus covered c.group path {o | o ∈ c.batch.offsets} := by
      funext g' path'
      ext o
      simp [plus, covers, some, eq_comm]
    rw [batch]
    exact h.settle (b := c.batch) (h.delivered_lt _ _ _ (known c hc))
      (inWindow_of_checkWindow checked) id _

/-- **A replay adds what its operation delivers and covers.** -/
theorem replay {live : Set CheckPoint} {r : Rows} {id : UInt64} {op : Operation} {d : Decision}
    (h : l.Accounts delivered covered) (filed : Filed l.config l.queue r live)
    (known : ∀ c ∈ live, c.offset ∈ delivered c.group c.kind.path)
    (ends : (Command.replay id op).Bounded) (decided : replayDecision id op l r = .ok d) :
    d.outcome = .ok () ∧
      d.ledger.Accounts (delivered ⊔ op.delivers) (covered ⊔ op.covers live) := by
  have nothing (s : UInt64 → Path → Set UInt64) : s ⊔ (fun _ _ => ∅) = s := by
    funext g path
    exact Set.union_empty _
  cases op with
  | pop p => exact h.pop ends decided
  | ack a =>
    rw [show (Operation.ack a).delivers = fun _ _ => ∅ from rfl, nothing]
    exact h.ack filed known decided
  | renewal w =>
    obtain ⟨-, c, -, rfl⟩ := renewDecision_eq_ok decided
    rw [show (Operation.renewal w).delivers = fun _ _ => ∅ from rfl,
      show (Operation.renewal w).covers live = fun _ _ => ∅ from rfl, nothing, nothing]
    exact ⟨rfl, h.congr rfl rfl⟩

end Accounts

end Ledger

end QueueLedger
