import QueueLedger.Proofs.Atomicity
import QueueLedger.Proofs.Isolation
/-!
# Ordered deliveries exclude each other

Within a consumer group an offset belongs to at most one ordered delivery in flight. The lock rows
say which offsets are taken: an offset is locked exactly while a live ordered delivery of the group
holds it (`Mirrors.lock_iff`), so a new ordered pop passes exactly if it holds none of these
(`Mirrors.unlocked_cases`).

Everything is said about one set, the deliveries in flight. Locks are taken and released with them:
what a replay does to the locks is read off what it does to this set (`Moment.Kept.after`).

## Proof shape

Locks are looked up offset by offset, and the deliveries are known by their last offset and their
number of messages. The two views agree for deliveries of at least one message that do not begin
below zero (`CheckPoint.Sized`). A pop is refused if it makes another one, so that an orderly run
has no others in flight and takes no snapshot of others (`Moment.held_of_reached`).
-/

namespace QueueLedger

/-! ### The offsets of a delivery -/

/-- A batch of at least one offset that does not begin below zero has the offsets that are counted
back from its last one. -/
theorem Batch.mem_ending {last o : UInt64} {count : UInt32} (positive : 1 ≤ count.toNat)
    (fits : count.toNat ≤ last.toNat + 1) :
    o ∈ (Batch.ending last count).offsets ↔ last.toNat < o.toNat + count.toNat ∧ o ≤ last := by
  have le : 1 ≤ count := UInt32.le_iff_toNat_le.2 positive
  have larger : max count 1 = count := by
    show (if count ≤ 1 then 1 else count) = count
    split
    next ge => exact UInt32.le_antisymm le ge
    next => rfl
  have first : (Batch.ending last count).first.toNat = last.toNat - (count.toNat - 1) := by
    show (satSub last (max count 1 - 1).toUInt64).toNat = _
    rw [toNat_satSub, larger, UInt32.toNat_toUInt64, UInt32.toNat_sub_of_le _ _ le]
    rfl
  rw [mem_offsets]
  refine and_congr_left fun _ => ?_
  rw [UInt64.le_iff_toNat_le, first]
  omega

/-- What is delivered is at least one message, and no more than there are offsets up to the last. -/
theorem Pop.count_of_check {p : Pop} (valid : p.check = .ok ()) :
    1 ≤ p.count.toNat ∧ p.count.toNat ≤ p.offset.toNat + 1 := by
  unfold check at valid
  split at valid
  next => cases valid
  next positive =>
    split at valid
    next => cases valid
    next fits =>
      rw [UInt64.not_lt, UInt64.le_iff_toNat_le, toNat_satAdd, UInt32.toNat_toUInt64] at fits
      have one : (1 : UInt64).toNat = 1 := rfl
      rw [one] at fits
      refine ⟨?_, by omega⟩
      by_contra none
      refine positive (UInt32.toNat_inj.1 ?_)
      rw [UInt32.toNat_zero]
      omega

theorem Pop.check_of_count {p : Pop} (positive : 1 ≤ p.count.toNat)
    (fits : p.count.toNat ≤ p.offset.toNat + 1) : p.check = .ok () := by
  unfold check
  rw [if_neg, if_neg]
  · rw [UInt64.not_lt, UInt64.le_iff_toNat_le, toNat_satAdd, UInt32.toNat_toUInt64]
    have one : (1 : UInt64).toNat = 1 := rfl
    have bound : p.count.toNat < 2 ^ 32 := p.count.toNat_lt
    have size : UInt64.size = 2 ^ 64 := rfl
    rw [one, size]
    omega
  · intro none
    rw [none] at positive
    exact absurd positive (by decide)

/-- Whether a pop has an offset among its messages. -/
def Pop.Wants (p : Pop) (offset : UInt64) : Prop :=
  p.offset.toNat < offset.toNat + p.count.toNat ∧ offset ≤ p.offset

instance (p : Pop) (offset : UInt64) : Decidable (p.Wants offset) :=
  inferInstanceAs (Decidable (_ ∧ _))

namespace CheckPoint

/-- A delivery of at least one message, and of no more than there are offsets up to its last. -/
def Sized (c : CheckPoint) : Prop := 1 ≤ c.count.toNat ∧ c.count.toNat ≤ c.offset.toNat + 1

/-- Whether an ordered delivery to a group has an offset among its messages. -/
def Holds (c : CheckPoint) (group offset : UInt64) : Prop :=
  c.kind = .order ∧ c.group = group ∧
    c.offset.toNat < offset.toNat + c.count.toNat ∧ offset ≤ c.offset

instance (c : CheckPoint) (group offset : UInt64) : Decidable (c.Holds group offset) :=
  inferInstanceAs (Decidable (_ ∧ _ ∧ _ ∧ _))

theorem holds_ofPop (id : UInt64) {p : Pop} (ordered : p.kind = .order) {group offset : UInt64} :
    (ofPop id p).Holds group offset ↔ group = p.group ∧ p.Wants offset := by
  constructor
  · intro h
    obtain ⟨-, same, wanted⟩ := h
    exact ⟨same.symm, wanted⟩
  · intro h
    obtain ⟨rfl, wanted⟩ := h
    exact ⟨ordered, rfl, wanted⟩

theorem Sized.holds_iff {c : CheckPoint} (sized : c.Sized) {group offset : UInt64} :
    c.Holds group offset ↔ c.kind = .order ∧ c.group = group ∧ offset ∈ c.batch.offsets := by
  rw [Holds, batch, Batch.mem_ending sized.1 sized.2]

theorem sized_ofPop (id : UInt64) {p : Pop} (valid : p.check = .ok ()) : (ofPop id p).Sized :=
  Pop.count_of_check valid

theorem Sized.mem_lockKeys_iff {c : CheckPoint} (sized : c.Sized) {key : Bytes} :
    key ∈ c.lockKeys ↔ ∃ o, c.Holds c.group o ∧ key = OrderLock.key c.group c.queue o := by
  simp only [mem_lockKeys, sized.holds_iff]
  constructor
  · intro h
    obtain ⟨ordered, o, ho, eq⟩ := h
    exact ⟨o, ⟨ordered, trivial, ho⟩, eq⟩
  · intro h
    obtain ⟨o, ⟨ordered, -, ho⟩, eq⟩ := h
    exact ⟨ordered, o, ho, eq⟩

end CheckPoint

/-- Operations that make no ordered delivery and settle none: pops that are not ordered or have an
end mark, and renewals. -/
def Operation.Aside : Operation → Prop
  | pop p => p.kind ≠ .order ∨ p.endMark = true
  | ack _ => False
  | renewal _ => True

/-! ### The locks -/

/-- Checks of which each passes or fails for a reason of some kind pass or fail as a whole in the
same way. -/
theorem forM_cases {α : Type} {f : α → Except Failure Unit} {why : Failure → Prop} {bad : α → Prop}
    {as : List α}
    (each : ∀ a ∈ as, f a = .ok () ∧ ¬ bad a ∨ (∃ e, f a = .error e ∧ why e) ∧ bad a) :
    as.forM f = .ok () ∧ (∀ a ∈ as, ¬ bad a) ∨
      (∃ e, as.forM f = .error e ∧ why e) ∧ ∃ a ∈ as, bad a := by
  induction as with
  | nil => exact Or.inl ⟨rfl, fun a ha => (List.not_mem_nil ha).elim⟩
  | cons a as ih =>
    have run : (a :: as).forM f = f a >>= fun _ => as.forM f := rfl
    rcases each a List.mem_cons_self with ⟨passes, good⟩ | ⟨⟨e, fails, he⟩, isBad⟩
    · have rest : (a :: as).forM f = as.forM f := by rw [run, passes]; rfl
      rw [rest]
      rcases ih fun a' ha' => each a' (List.mem_cons_of_mem a ha') with ⟨all, goods⟩ | ⟨some, bads⟩
      · exact Or.inl ⟨all, List.forall_mem_cons.2 ⟨good, goods⟩⟩
      · obtain ⟨a', ha', isBad⟩ := bads
        exact Or.inr ⟨some, a', List.mem_cons_of_mem a ha', isBad⟩
    · refine Or.inr ⟨⟨e, ?_, he⟩, a, List.mem_cons_self, isBad⟩
      rw [run, fails]
      rfl

namespace Mirrors

variable {l : Ledger} {r : Rows} {live : Set CheckPoint}

/-- The lock of an offset stands exactly while a live delivery holds it, whose operation owns it. -/
theorem lock_iff {tables : Config} {q : QueueId} (distinct : tables.distinct)
    (m : Mirrors tables q r live) (sized : ∀ c ∈ live, c.Sized) {group offset : UInt64}
    {value : Bytes} :
    r.get tables.locks (OrderLock.key group q offset) = some value ↔
      ∃ c ∈ live, c.Holds group offset ∧ value = OrderLock.value c.operation := by
  rw [(m.coherent distinct).locks]
  constructor
  · intro h
    obtain ⟨c, standing, ordered, same, ho, eq⟩ := h
    have hc := (m.mem_iff distinct).2 standing
    exact ⟨c, hc, (sized c hc).holds_iff.2 ⟨ordered, same, ho⟩, eq⟩
  · intro h
    obtain ⟨c, hc, holds, eq⟩ := h
    obtain ⟨ordered, same, ho⟩ := (sized c hc).holds_iff.1 holds
    exact ⟨c, (m.mem_iff distinct).1 hc, ordered, same, ho, eq⟩

/-- Two live deliveries of one group do not hold an offset together. -/
theorem eq_of_holds {tables : Config} {q : QueueId} (m : Mirrors tables q r live)
    (sized : ∀ c ∈ live, c.Sized) {c c' : CheckPoint} (hc : c ∈ live) (hc' : c' ∈ live)
    {group offset : UInt64} (holds : c.Holds group offset) (holds' : c'.Holds group offset) :
    c = c' := by
  obtain ⟨ordered, same, ho⟩ := (sized c hc).holds_iff.1 holds
  obtain ⟨ordered', same', ho'⟩ := (sized c' hc').holds_iff.1 holds'
  refine m.eq_of_collides hc hc'
    (Or.inr ⟨ordered, ordered', same.trans same'.symm, ?_, offset, ho, ho'⟩)
  rw [m.own c hc, m.own c' hc']

/-- **The check of locks.** A delivery of a new operation passes if no live delivery holds one of
its offsets, and is refused as an illegal argument if one does. -/
theorem unlocked_cases (distinct : l.config.distinct) (m : Mirrors l.config l.queue r live)
    (sized : ∀ c ∈ live, c.Sized) {c : CheckPoint} (own : c.queue = l.queue) (new : c.Sized)
    (fresh : ∀ c' ∈ live, c'.operation ≠ c.operation) :
    l.unlocked r c = .ok () ∧ (¬ ∃ c' ∈ live, ∃ o, c.Holds c.group o ∧ c'.Holds c.group o) ∨
      (∃ e, l.unlocked r c = .error e ∧ ∃ why, e = .illegalArgument why) ∧
        ∃ c' ∈ live, ∃ o, c.Holds c.group o ∧ c'.Holds c.group o := by
  have each : ∀ key ∈ c.lockKeys,
      l.unlockedAt r c key = .ok () ∧ ¬ (r.get l.config.locks key).isSome ∨
        (∃ e, l.unlockedAt r c key = .error e ∧ ∃ why, e = .illegalArgument why) ∧
          (r.get l.config.locks key).isSome := by
    intro key hkey
    obtain ⟨o, -, rfl⟩ := new.mem_lockKeys_iff.1 hkey
    unfold Ledger.unlockedAt
    cases row : r.get l.config.locks (OrderLock.key c.group c.queue o) with
    | none => exact Or.inl ⟨rfl, by simp⟩
    | some value =>
      rw [own] at row
      obtain ⟨c', hc', -, rfl⟩ := (m.lock_iff distinct sized).1 row
      refine Or.inr ⟨⟨.illegalArgument (.locked c.offset c'.operation), ?_, _, rfl⟩, rfl⟩
      dsimp only
      rw [OrderLock.owner_value]
      exact if_neg (fresh c' hc')
  have taken (o : UInt64) : (r.get l.config.locks (OrderLock.key c.group c.queue o)).isSome ↔
      ∃ c' ∈ live, c'.Holds c.group o := by
    rw [Option.isSome_iff_exists, own]
    constructor
    · intro h
      obtain ⟨value, row⟩ := h
      obtain ⟨c', hc', holds, -⟩ := (m.lock_iff distinct sized).1 row
      exact ⟨c', hc', holds⟩
    · intro h
      obtain ⟨c', hc', holds⟩ := h
      exact ⟨_, (m.lock_iff distinct sized).2 ⟨c', hc', holds, rfl⟩⟩
  rcases forM_cases each with ⟨passes, free⟩ | ⟨fails, key, hkey, standing⟩
  · refine Or.inl ⟨passes, fun blocked => ?_⟩
    obtain ⟨c', hc', o, wanted, holds⟩ := blocked
    exact free _ (new.mem_lockKeys_iff.2 ⟨o, wanted, rfl⟩) ((taken o).2 ⟨c', hc', holds⟩)
  · obtain ⟨o, wanted, rfl⟩ := new.mem_lockKeys_iff.1 hkey
    obtain ⟨c', hc', holds⟩ := (taken o).1 standing
    exact Or.inr ⟨fails, c', hc', o, wanted, holds⟩

end Mirrors

/-- Whether a site says that an offset is locked for a group. -/
def Site.Locked (s : Site) (group offset : UInt64) : Prop :=
  (Act.isLocked group offset s).1 = .ok true

theorem Act.isLocked_eq {s : Site} (answers : s.host.Answers) (group offset : UInt64) :
    (isLocked group offset s).1 =
      .ok (s.rows.get s.ledger.config.locks (OrderLock.key group s.ledger.queue offset)).isSome :=
  (isLocked_reads group offset).of_answers answers

/-! ### What runs do to the locks -/

namespace Moment

variable {queue : QueueId} {config : Config} {first : Rows} {m : Moment}
  {live live' : Set CheckPoint}

/-- What an orderly run keeps, with the sizes of the deliveries. -/
structure Held (queue : QueueId) (config : Config) (first : Rows) (m : Moment)
    (live : Set CheckPoint) : Prop extends Kept queue config first m live where
  sized : ∀ c ∈ live, c.Sized
  sized_taken : ∀ s ∈ m.taken, ∀ c ∈ s.checkPoints, c.Sized

/-- Calls make deliveries of known size from such deliveries. -/
theorem Held.sized_of_leadsTo (h : Held queue config first m live) {c : Command} {d : Decision}
    (may : m.Orderly c) (decided : c.decision m.site.ledger m.site.rows = .ok d)
    (leads : c.LeadsTo live live') : ∀ c ∈ live', c.Sized := by
  match c with
  | .replay id (.pop p) =>
    obtain ⟨-, valid, -⟩ := Ledger.popDecision_eq_ok decided
    intro c hc
    rw [Command.LeadsTo] at leads
    subst leads
    split at hc
    · exact h.sized c hc
    · rcases hc with rfl | hc
      · exact CheckPoint.sized_ofPop id valid
      · exact h.sized c hc
  | .replay id (.ack a) =>
    obtain ⟨gone, -, -, rfl⟩ := leads
    exact fun c hc => h.sized c hc.1
  | .replay id (.renewal w) =>
    obtain ⟨old, hold, -, rfl⟩ := leads
    intro c hc
    rcases hc with rfl | ⟨hc, -⟩
    · exact h.sized old hold
    · exact h.sized c hc
  | .takeSnapshot =>
    obtain rfl : live' = live := leads
    exact h.sized
  | .load s =>
    obtain rfl : live' = {c | c ∈ s.checkPoints} := leads
    exact h.sized_taken s may
  | .clear =>
    obtain rfl : live' = ∅ := leads
    exact fun c hc => hc.elim
  | .release s =>
    obtain rfl : live' = live := leads
    exact h.sized

/-- One call of an orderly run. -/
theorem Held.after (distinct : config.distinct) (h : Held queue config first m live) {c : Command}
    (may : m.Orderly c) :
    ∃ live', Held queue config first (m.after c) live' ∧
      (c.Fails m.site (c.act m.site) ∧ live' = live ∨
        (∃ d, c.decision m.site.ledger m.site.rows = .ok d) ∧ c.LeadsTo live live') := by
  have distinct' : m.site.ledger.config.distinct := by rw [h.config_eq]; exact distinct
  have taken : ∀ s ∈ (m.after c).taken, ∀ c ∈ s.checkPoints, c.Sized := by
    intro s hs
    rcases mem_taken_after hs with old | given
    · exact h.sized_taken s old
    · obtain ⟨-, -, -, scan⟩ := Command.taken_spec given
      have mem := h.inFlight.mirrors.mem_of_scanned distinct' scan
      exact fun c hc => h.sized c ((mem c).1 hc)
  obtain ⟨live', kept, happened⟩ := h.toKept.after distinct may
  refine ⟨live', ⟨kept, ?_, taken⟩, happened⟩
  rcases happened with ⟨-, rfl⟩ | ⟨⟨d, decided⟩, leads⟩
  · exact h.sized
  · exact h.sized_of_leadsTo may decided leads

theorem held_of_reached {host : Host} (distinct : config.distinct)
    (bare : ∀ a, Owned config queue a → host.store.rows.get a.space a.key = none)
    (run : Reached Orderly (.start queue config host) m) :
    ∃ live, Held queue config host.store.rows m live := by
  induction run with
  | start =>
    exact ⟨∅, kept_start queue config host bare, fun _ hc => hc.elim,
      fun _ hs => (List.not_mem_nil hs).elim⟩
  | call c before may ih =>
    obtain ⟨live, h⟩ := ih
    obtain ⟨live', h', -⟩ := h.after distinct may
    exact ⟨live', h'⟩

/-- The site answers for every offset whether a live delivery holds it. -/
theorem Held.isLocked (distinct : config.distinct) (h : Held queue config first m live)
    (answers : m.site.host.Answers) (group offset : UInt64) :
    ∃ locked, (Act.isLocked group offset m.site).1 = .ok locked ∧
      (locked = true ↔ ∃ c ∈ live, c.Holds group offset) := by
  have mirrors := h.inFlight.mirrors
  rw [h.config_eq, h.queue_eq] at mirrors
  refine ⟨_, Act.isLocked_eq answers group offset, ?_⟩
  rw [h.config_eq, h.queue_eq, Option.isSome_iff_exists]
  simp only [mirrors.lock_iff distinct h.sized]
  constructor
  · intro standing
    obtain ⟨value, c, hc, holds, -⟩ := standing
    exact ⟨c, hc, holds⟩
  · intro held
    obtain ⟨c, hc, holds⟩ := held
    exact ⟨_, c, hc, holds, rfl⟩

theorem Held.locked_iff (distinct : config.distinct) (h : Held queue config first m live)
    (answers : m.site.host.Answers) (group offset : UInt64) :
    m.site.Locked group offset ↔ ∃ c ∈ live, c.Holds group offset := by
  obtain ⟨locked, answer, iff⟩ := h.isLocked distinct answers group offset
  rw [Site.Locked, answer, Except.ok.injEq, iff]

/-- What a replay above the cursor does to the deliveries in flight is what it does to the locks. -/
theorem Held.locked_replay (distinct : config.distinct) (h : Held queue config first m live)
    (answers : m.site.host.Answers) {id : UInt64} (op : Operation)
    (above : m.site.ledger.Above id) :
    ∃ live', ((∃ e, Ledger.replayDecision id op m.site.ledger m.site.rows = .error e ∧
          (Act.replay id op m.site).1 = .error e) ∧ live' = live ∨
        (Command.replay id op).LeadsTo live live') ∧
      ∀ group offset, (Act.replay id op m.site).2.Locked group offset ↔
        ∃ c ∈ live', c.Holds group offset := by
  obtain ⟨live', h', happened⟩ := h.after distinct (c := .replay id op) above
  have site : (m.after (.replay id op)).site = (Act.replay id op m.site).2 := by
    rw [after_site, Command.act, Act.map_run]
  refine ⟨live', happened.imp (fun failed => ⟨?_, failed.2⟩) And.right, fun group offset => ?_⟩
  · obtain ⟨⟨e, answer, -, why⟩, -⟩ := failed
    refine ⟨e, why.resolve_right fun refuses => refuses.1 answers, ?_⟩
    rw [Command.act, Act.map_run] at answer
    cases given : (Act.replay id op m.site).1 with
    | error e' =>
      rw [given] at answer
      cases answer
      rfl
    | ok a =>
      rw [given] at answer
      cases answer
  · have answers' := (Act.replay_does id op).answers answers
    rw [← site] at answers' ⊢
    exact h'.locked_iff distinct answers' group offset

variable {id : UInt64}

/-- **Admission of ordered pops.** At an id above the cursor one is accepted if no live delivery
holds an offset of it, and refused as an illegal argument if one does. -/
theorem Held.admits (distinct : config.distinct) (h : Held queue config first m live)
    (answers : m.site.host.Answers) {p : Pop} (above : m.site.ledger.Above id)
    (own : p.queue = queue) (ordered : p.kind = .order) (mark : p.endMark = false)
    (valid : p.check = .ok ()) :
    (Act.replay id (.pop p) m.site).1 = .ok () ∧
        (¬ ∃ c ∈ live, ∃ o, p.Wants o ∧ c.Holds p.group o) ∨
      (∃ why, (Act.replay id (.pop p) m.site).1 = .error (.illegalArgument why)) ∧
        ∃ c ∈ live, ∃ o, p.Wants o ∧ c.Holds p.group o := by
  have distinct' : m.site.ledger.config.distinct := by rw [h.config_eq]; exact distinct
  have home : p.queue = m.site.ledger.queue := own.trans h.queue_eq.symm
  have turn := Ledger.checkTurn_of_above home above
  have decision : Ledger.popDecision id p m.site.ledger m.site.rows =
      m.site.ledger.unlocked m.site.rows (.ofPop id p) >>= fun _ =>
        .ok ⟨(CheckPoint.ofPop id p).puts m.site.ledger.config, .ok (),
          (m.site.ledger.deliver p.group p.kind.path p.offset).withCursor id⟩ := by
    unfold Ledger.popDecision
    rw [turn, valid, mark]
    rfl
  have replay := (Act.replay_does id (.pop p)).of_answers answers
  rw [Ledger.replayDecision, decision] at replay
  have wants (o : UInt64) : (CheckPoint.ofPop id p).Holds p.group o ↔ p.Wants o := by
    simp [CheckPoint.holds_ofPop id ordered]
  have check := h.inFlight.mirrors.unlocked_cases distinct' h.sized home
    (CheckPoint.sized_ofPop id valid) fun c hc => h.inFlight.operation_ne above hc
  simp only [show (CheckPoint.ofPop id p).group = p.group from rfl, wants] at check
  rcases check with ⟨passes, free⟩ | ⟨⟨e, fails, why, rfl⟩, blocked⟩
  · refine Or.inl ⟨?_, free⟩
    rw [passes] at replay
    rcases replay with ⟨e, decided, -⟩ | ⟨d, decided, answer, -⟩
    · cases decided
    · cases decided
      exact answer
  · refine Or.inr ⟨⟨why, ?_⟩, blocked⟩
    rw [fails] at replay
    rcases replay with ⟨e, decided, answer, -⟩ | ⟨d, decided, -⟩
    · cases decided
      exact answer
    · cases decided

/-- An ordered pop that is accepted takes the locks of its offsets. -/
theorem Held.locked_of_pop (distinct : config.distinct) (h : Held queue config first m live)
    (answers : m.site.host.Answers) {p : Pop} (above : m.site.ledger.Above id)
    (ordered : p.kind = .order) (mark : p.endMark = false)
    (accepted : (Act.replay id (.pop p) m.site).1 = .ok ()) (group offset : UInt64) :
    (Act.replay id (.pop p) m.site).2.Locked group offset ↔
      m.site.Locked group offset ∨ (group = p.group ∧ p.Wants offset) := by
  obtain ⟨live', happened, after⟩ := h.locked_replay distinct answers (.pop p) above
  rw [after, h.locked_iff distinct answers, ← CheckPoint.holds_ofPop id ordered]
  rcases happened with ⟨⟨e, -, failed⟩, -⟩ | leads
  · rw [accepted] at failed
    cases failed
  · rw [Command.LeadsTo, if_neg (by simp [mark])] at leads
    subst leads
    rw [Set.exists_mem_insert, or_comm]

/-- What makes no ordered delivery and settles none leaves all locks alone. -/
theorem Held.locked_of_aside (distinct : config.distinct) (h : Held queue config first m live)
    (answers : m.site.host.Answers) {op : Operation} (above : m.site.ledger.Above id)
    (aside : op.Aside) (group offset : UInt64) :
    (Act.replay id op m.site).2.Locked group offset ↔ m.site.Locked group offset := by
  obtain ⟨live', happened, after⟩ := h.locked_replay distinct answers op above
  rw [after, h.locked_iff distinct answers]
  rcases happened with ⟨-, rfl⟩ | leads
  · rfl
  match op with
  | .pop p =>
    rw [Command.LeadsTo] at leads
    subst leads
    split
    · rfl
    next mark =>
      rw [Set.exists_mem_insert]
      refine or_iff_right fun holds => ?_
      rcases aside with other | marked
      · exact other holds.1
      · exact mark marked
  | .ack a => exact aside.elim
  | .renewal w =>
    obtain ⟨c, hc, -, rfl⟩ := leads
    rw [Set.exists_mem_insert]
    -- The renewed delivery holds what the old one holds.
    constructor
    · intro held
      rcases held with holds | ⟨c', ⟨hc', -⟩, holds⟩
      · exact ⟨c, hc, holds⟩
      · exact ⟨c', hc', holds⟩
    · intro held
      obtain ⟨c', hc', holds⟩ := held
      by_cases same : c' = c
      · subst same
        exact Or.inl holds
      · exact Or.inr ⟨c', ⟨hc', same⟩, holds⟩

/-- Above the cursor an acknowledgment is refused if it is for another queue, if there is no such
delivery, or if the batch lies outside the window. -/
theorem Held.why_of_ackDecision (distinct : config.distinct) (h : Held queue config first m live)
    {a : Ack} {e : Failure} (above : m.site.ledger.Above id)
    (refused : Ledger.ackDecision id a m.site.ledger m.site.rows = .error e) :
    a.queue ≠ queue ∨ (∀ c ∈ live, c.operation ≠ a.target) ∨
      ∃ offset mark, e = .ackWindowOverflow offset mark := by
  have distinct' : m.site.ledger.config.distinct := by rw [h.config_eq]; exact distinct
  by_cases own : a.queue = queue
  case neg => exact Or.inl own
  by_cases absent : ∀ c ∈ live, c.operation ≠ a.target
  case pos => exact Or.inr (Or.inl absent)
  push Not at absent
  obtain ⟨c, hc, target⟩ := absent
  have found := (h.inFlight.mirrors.filed distinct').found_of_mem hc
  have turn := Ledger.checkTurn_of_above (own.trans h.queue_eq.symm) above
  right; right
  by_contra other
  rw [Ledger.ackDecision, turn, ← target, found] at refused
  refine absurd refused (bind_ne_error (ok_ne_error _ _) fun _ =>
    bind_ne_error (ok_ne_error _ _) fun c' => ?_)
  split
  · exact ok_ne_error _ _
  · exact bind_ne_error (Ledger.checkWindow_ne_error fun o mark same => other ⟨o, mark, same.symm⟩)
      fun _ => ok_ne_error _ _

/-- An acknowledgment is refused and leaves all locks alone, or it releases those of its
delivery. -/
theorem Held.locked_of_ack (distinct : config.distinct) (h : Held queue config first m live)
    (answers : m.site.host.Answers) (a : Ack) (above : m.site.ledger.Above id) :
    (∃ e, (Act.replay id (.ack a) m.site).1 = .error e ∧ (a.queue ≠ queue ∨
          (∀ c ∈ live, c.operation ≠ a.target) ∨
            ∃ offset mark, e = .ackWindowOverflow offset mark)) ∧
        (∀ group offset, (Act.replay id (.ack a) m.site).2.Locked group offset ↔
          m.site.Locked group offset) ∨
      ∃ c ∈ live, c.operation = a.target ∧
        ∀ group offset, (Act.replay id (.ack a) m.site).2.Locked group offset ↔
          m.site.Locked group offset ∧ ¬ c.Holds group offset := by
  obtain ⟨live', happened, after⟩ := h.locked_replay distinct answers (.ack a) above
  simp only [after, h.locked_iff distinct answers]
  rcases happened with ⟨⟨e, refused, failed⟩, rfl⟩ | ⟨c, hc, target, rfl⟩
  · exact Or.inl ⟨⟨e, failed, h.why_of_ackDecision distinct above refused⟩, fun _ _ => Iff.rfl⟩
  refine Or.inr ⟨c, hc, target, fun group offset => ?_⟩
  constructor
  · intro held
    obtain ⟨c', ⟨hc', other⟩, holds⟩ := held
    exact ⟨⟨c', hc', holds⟩, fun own =>
      other (h.inFlight.mirrors.eq_of_holds h.sized hc' hc holds own)⟩
  · intro held
    obtain ⟨⟨c', hc', holds⟩, free⟩ := held
    refine ⟨c', ⟨hc', fun same => ?_⟩, holds⟩
    rw [Set.mem_singleton_iff.1 same] at holds
    exact free holds

end Moment

/-! ### The main statement -/

/-- Whether some delivery of a list holds an offset that a pop wants for its group. -/
def Pop.Blocked (p : Pop) (live : List CheckPoint) : Prop :=
  ∃ c ∈ live, ∃ o, p.Wants o ∧ c.Holds p.group o

/-- **Ordered deliveries exclude each other.** Start with an empty ledger on a host that answers and
has no row of the queue, with three different tables, and make any orderly calls. Then an offset is
locked for a group exactly while a live ordered delivery of the group holds it, and no two of these
hold one together. At an id above the cursor, an ordered pop is accepted exactly if no live delivery
of its group holds an offset that it wants, and is otherwise refused as an illegal argument;
accepted, it takes the locks of these offsets. Other pops, end marks and renewals leave all locks
alone. An acknowledgment of either kind releases exactly the locks of its delivery; it releases none
if it is refused, which is so if it is for another queue, finds no delivery, or lies outside the
window. -/
theorem Reached.excludes {queue : QueueId} {config : Config} {host : Host} {m : Moment}
    (distinct : config.distinct)
    (bare : ∀ a, Owned config queue a → host.store.rows.get a.space a.key = none)
    (answers : host.Answers) (run : Reached Moment.Orderly (.start queue config host) m) :
    ∃ live : List CheckPoint, (Act.checkPoints m.site).1 = .ok live ∧
      (∀ g o, ∃ locked, (Act.isLocked g o m.site).1 = .ok locked ∧
        (locked = true ↔ ∃ c ∈ live, c.Holds g o)) ∧
      (∀ c ∈ live, ∀ c' ∈ live, ∀ g o, c.Holds g o → c'.Holds g o → c = c') ∧
      ∀ id, m.site.ledger.Above id →
        (∀ p : Pop, p.queue = queue → p.kind = .order → p.endMark = false →
          1 ≤ p.count.toNat → p.count.toNat ≤ p.offset.toNat + 1 →
          ((Act.replay id (.pop p) m.site).1 = .ok () ↔ ¬ p.Blocked live) ∧
          (p.Blocked live →
            ∃ why, (Act.replay id (.pop p) m.site).1 = .error (.illegalArgument why)) ∧
          (¬ p.Blocked live → ∀ g o, (Act.replay id (.pop p) m.site).2.Locked g o ↔
            m.site.Locked g o ∨ (g = p.group ∧ p.Wants o))) ∧
        (∀ op : Operation, op.Aside → ∀ g o,
          (Act.replay id op m.site).2.Locked g o ↔ m.site.Locked g o) ∧
        ∀ a : Ack,
          (∃ e, (Act.replay id (.ack a) m.site).1 = .error e ∧ (a.queue ≠ queue ∨
                (∀ c ∈ live, c.operation ≠ a.target) ∨ ∃ o mark, e = .ackWindowOverflow o mark)) ∧
              (∀ g o, (Act.replay id (.ack a) m.site).2.Locked g o ↔ m.site.Locked g o) ∨
            ∃ c ∈ live, c.operation = a.target ∧ ∀ g o,
              (Act.replay id (.ack a) m.site).2.Locked g o ↔ m.site.Locked g o ∧ ¬ c.Holds g o := by
  obtain ⟨live, h⟩ := Moment.held_of_reached distinct bare run
  have distinct' : m.site.ledger.config.distinct := by rw [h.config_eq]; exact distinct
  have answers' := Moment.answers_of_reached answers run
  obtain ⟨listed, scan, mem⟩ := h.inFlight.mirrors.scanned distinct'
  have listing : (Act.checkPoints m.site).1 = .ok listed :=
    (Act.scan_reads.of_answers answers').trans scan
  refine ⟨listed, listing, ?_, ?_, fun id above => ⟨?_, ?_, ?_⟩⟩
  · simp only [mem]
    exact h.isLocked distinct answers'
  · simp only [mem]
    exact fun c hc c' hc' g o => h.inFlight.mirrors.eq_of_holds h.sized hc hc'
  · intro p own ordered mark positive fits
    simp only [Pop.Blocked, mem]
    rcases h.admits distinct answers' above own ordered mark (Pop.check_of_count positive fits)
      with ⟨accepted, free⟩ | ⟨⟨why, refused⟩, blocked⟩
    · exact ⟨iff_of_true accepted free, fun blocked => absurd blocked free,
        fun _ => h.locked_of_pop distinct answers' above ordered mark accepted⟩
    · refine ⟨iff_of_false (fun accepted => ?_) (not_not_intro blocked), fun _ => ⟨why, refused⟩,
        fun free => absurd blocked free⟩
      rw [refused] at accepted
      cases accepted
  · exact fun op => h.locked_of_aside distinct answers' above
  · simp only [mem]
    exact fun a => h.locked_of_ack distinct answers' a above

/-- Two groups with overlapping deliveries, one of which is acknowledged and comes back with a
snapshot: a pop that shares its last offset is refused, and one right after it is accepted. -/
theorem Reached.excludes_of_overlap :
    let pop (group offset : UInt64) (count : UInt32) : Pop :=
      ⟨⟨1, 0⟩, group, offset, count, .order, 1000, 500, false, 0⟩
    let popped := (Moment.start ⟨1, 0⟩ .standard .fresh).after (.replay 1 (.pop (pop 5 10 3)))
    let beside := popped.after (.replay 2 (.pop (pop 6 12 4)))
    let taken := beside.after .takeSnapshot
    let settled := taken.after (.replay 3 (.ack ⟨⟨1, 0⟩, 1, .normal, 1200⟩))
    let m := settled.after (.load taken.taken.head!)
    m.site.Locked 5 10 ∧
      (∃ why, (Act.replay 3 (.pop (pop 5 12 3)) m.site).1 = .error (.illegalArgument why)) ∧
      (Act.replay 3 (.pop (pop 5 13 3)) m.site).1 = .ok () ∧
      ∀ g o, (Act.replay 3 (.pop (pop 5 13 3)) m.site).2.Locked g o ↔
        m.site.Locked g o ∨ (g = 5 ∧ (pop 5 13 3).Wants o) := by
  intro pop popped beside taken settled m
  have first : Ledger.Above (.empty ⟨1, 0⟩ .standard) 1 := by decide
  have second : popped.site.ledger.Above 2 := by decide +kernel
  have third : taken.site.ledger.Above 3 := by decide +kernel
  have held : taken.taken.head! ∈ settled.taken := by decide +kernel
  have run : Reached Moment.Orderly (.start ⟨1, 0⟩ .standard .fresh) popped :=
    Reached.start.call (.replay 1 (.pop (pop 5 10 3))) first
  have run : Reached Moment.Orderly (.start ⟨1, 0⟩ .standard .fresh) beside :=
    run.call (.replay 2 (.pop (pop 6 12 4))) second
  have run : Reached Moment.Orderly (.start ⟨1, 0⟩ .standard .fresh) taken :=
    run.call .takeSnapshot trivial
  have run : Reached Moment.Orderly (.start ⟨1, 0⟩ .standard .fresh) settled :=
    run.call (.replay 3 (.ack ⟨⟨1, 0⟩, 1, .normal, 1200⟩)) third
  have run : Reached Moment.Orderly (.start ⟨1, 0⟩ .standard .fresh) m :=
    run.call (.load taken.taken.head!) held
  have listed :
      (Act.checkPoints m.site).1 = .ok [.ofPop 1 (pop 5 10 3), .ofPop 2 (pop 6 12 4)] := by
    decide +kernel
  have above : m.site.ledger.Above 3 := by decide +kernel
  -- From here on only these facts count, and not how the moment came about.
  clear_value m
  obtain ⟨live, listing, locked, -, replay⟩ := Reached.excludes (by decide)
    (fun a _ => Host.get_fresh a.space a.key) (fun _ _ => rfl) run
  rw [listed, Except.ok.injEq] at listing
  subst listing
  obtain ⟨pops, -, -⟩ := replay 3 above
  have covers : (CheckPoint.ofPop 1 (pop 5 10 3)).Holds 5 10 := by decide
  have taken : m.site.Locked 5 10 := by
    obtain ⟨b, answer, iff⟩ := locked 5 10
    rw [Site.Locked, answer, iff.2 ⟨_, List.mem_cons_self, covers⟩]
  have free : ¬ (pop 5 13 3).Blocked [.ofPop 1 (pop 5 10 3), .ofPop 2 (pop 6 12 4)] := by
    intro blocked
    obtain ⟨c, hc, o, wanted, holds⟩ := blocked
    simp only [List.mem_cons, List.not_mem_nil, or_false] at hc
    rcases hc with rfl | rfl
    · have high : 13 < o.toNat + 3 := wanted.1
      have low : o.toNat ≤ 10 := UInt64.le_iff_toNat_le.1 holds.2.2.2
      omega
    · exact absurd holds.2.1 (by decide)
  obtain ⟨-, refused, -⟩ := pops (pop 5 12 3) rfl rfl rfl (by decide) (by decide)
  obtain ⟨accepts, -, takes⟩ := pops (pop 5 13 3) rfl rfl rfl (by decide) (by decide)
  exact ⟨taken, refused ⟨_, List.mem_cons_self, 10, by decide, covers⟩, accepts.2 free,
    takes free⟩

end QueueLedger
