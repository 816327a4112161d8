import QueueLedger.Proofs.Accounts
import QueueLedger.Proofs.Coherence
/-!
# Acknowledgment never overtakes delivery

No call compares an ack offset with a consume offset, and yet the one stays at or below the other,
in every group and on each path (`Reached.acked_le_consumed`). This holds also where the tables are
not coherent: operations may be tried again under the same id, and so push aside what they left.

## Proof shape

The counters alone do not carry the induction, since an acknowledgment looks at the check point
only. What carries it is that every covered offset lies at or below some delivered one, and that
the deliveries in flight count among those that were delivered (`Ledger.Leads`). A snapshot says the
same of the ledger that it was taken of (`Snapshot.Leads`), so loading brings it back. Of the rows
only the check points matter (`Filed`).
-/

namespace QueueLedger

/-- What is covered was delivered before, and so was what is in flight. -/
def Ledger.Leads (l : Ledger) (live : Set CheckPoint) : Prop :=
  ∃ delivered covered, l.Accounts delivered covered ∧
    (∀ g path, ∀ o ∈ covered g path, ∃ p ∈ delivered g path, o ≤ p) ∧
    ∀ c ∈ live, c.offset ∈ delivered c.group c.kind.path

/-- No counter is smaller. -/
structure Ledger.Rises (l l' : Ledger) : Prop where
  consumed : ∀ g path, (l.counters g).consumed path ≤ (l'.counters g).consumed path
  acked : ∀ g path, (l.counters g).acked path ≤ (l'.counters g).acked path

/-- A check point of the same messages for the same group. -/
structure CheckPoint.Renews (c c' : CheckPoint) : Prop where
  group : c.group = c'.group
  kind : c.kind = c'.kind
  offset : c.offset = c'.offset

theorem CheckPoint.Renews.refl (c : CheckPoint) : c.Renews c := ⟨rfl, rfl, rfl⟩

namespace Ledger

variable {l l' : Ledger} {r : Rows} {live live' : Set CheckPoint} {id : UInt64} {op : Operation}
  {d : Decision}

/-- Where more was delivered and more is covered, no counter is smaller. -/
theorem Accounts.rises {delivered delivered' covered covered' : UInt64 → Path → Set UInt64}
    (h : l.Accounts delivered covered) (h' : l'.Accounts delivered' covered')
    (more : ∀ g path, delivered g path ⊆ delivered' g path)
    (more' : ∀ g path, covered g path ⊆ covered' g path) : l.Rises l' where
  consumed g path := by
    have reached : ((l.counters g).consumed path).toNat ∈ nexts (delivered' g path) :=
      Set.insert_subset_insert (Set.image_mono (more g path)) (h.consumed g path).1
    exact UInt64.le_iff_toNat_le.2 ((h'.consumed g path).2 reached)
  acked g path := (h.acked g path).2 fun here => (h'.acked g path).1 (more' g path here)

namespace Leads

theorem empty (queue : QueueId) (config : Config) : (Ledger.empty queue config).Leads ∅ :=
  ⟨_, _, .empty queue config, fun _ _ _ ho => ho.elim, fun _ hc => hc.elim⟩

theorem congr (h : l.Leads live) (groups : l'.groups = l.groups) (config : l'.config = l.config) :
    l'.Leads live := by
  obtain ⟨delivered, covered, accounts, below, inFlight⟩ := h
  exact ⟨delivered, covered, accounts.congr groups config, below, inFlight⟩

theorem tracked (h : l.Leads live) : l.Tracked := by
  obtain ⟨delivered, covered, accounts, -⟩ := h
  exact accounts.tracked

/-- The ack offset is at or below the consume offset. -/
theorem acked_le (h : l.Leads live) (g : UInt64) (path : Path) :
    (l.counters g).acked path ≤ (l.counters g).consumed path := by
  obtain ⟨delivered, covered, accounts, below, -⟩ := h
  by_contra overtaken
  rw [UInt64.not_le] at overtaken
  -- An offset below the ack offset is covered, so something was delivered at it or above.
  have here : (l.counters g).consumed path ∈ covered g path := by
    by_contra free
    exact absurd ((accounts.acked g path).2 free) (UInt64.not_le.2 overtaken)
  obtain ⟨p, delivered, le⟩ := below g path _ here
  have next := (accounts.consumed g path).2 (Or.inr ⟨p, delivered, rfl⟩)
  rw [UInt64.le_iff_toNat_le] at le
  dsimp only at next
  omega

/-- What is in flight lies below the consume offset. -/
theorem offset_lt (h : l.Leads live) {c : CheckPoint} (hc : c ∈ live) :
    c.offset < (l.counters c.group).consumed c.kind.path := by
  obtain ⟨delivered, covered, accounts, -, inFlight⟩ := h
  rw [UInt64.lt_iff_toNat_lt]
  exact (accounts.consumed c.group c.kind.path).2 (Or.inr ⟨c.offset, inFlight c hc, rfl⟩)

/-- A replay keeps the lead for what it leaves in flight, and no counter falls. -/
theorem replay (h : l.Leads live) (filed : Filed l.config l.queue r live)
    (ends : (Command.replay id op).Bounded) (decided : replayDecision id op l r = .ok d)
    (leaves : ∀ c ∈ live', (∃ c' ∈ live, c.Renews c') ∨
      c.offset ∈ op.delivers c.group c.kind.path) :
    d.ledger.Leads live' ∧ l.Rises d.ledger := by
  obtain ⟨delivered, covered, accounts, below, inFlight⟩ := h
  have after := (accounts.replay filed inFlight ends decided).2
  refine ⟨⟨_, _, after, ?_, ?_⟩, accounts.rises after (fun _ _ _ => Or.inl) fun _ _ _ => Or.inl⟩
  · rintro g path o (old | new)
    · obtain ⟨p, hp, le⟩ := below g path o old
      exact ⟨p, Or.inl hp, le⟩
    · cases op with
      | pop p =>
        obtain ⟨-, group, path, ho⟩ := new
        exact ⟨p.offset, Or.inr ⟨group, path, rfl⟩, (Batch.mem_offsets.1 ho).2⟩
      | ack a =>
        obtain ⟨c, hc, -, rfl, rfl, -, ho⟩ := new
        exact ⟨c.offset, Or.inl (inFlight c hc), (Batch.mem_offsets.1 ho).2⟩
      | renewal w => exact new.elim
  · intro c hc
    rcases leaves c hc with ⟨c', hc', same⟩ | new
    · refine Or.inl ?_
      rw [same.group, same.kind, same.offset]
      exact inFlight c' hc'
    · exact Or.inr new

end Leads

/-- The check points that a replay leaves are those of before, perhaps renewed, and the one of its
own pop. -/
theorem filed_of_replay (distinct : l.config.distinct) (filed : Filed l.config l.queue r live)
    (decided : replayDecision id op l r = .ok d) :
    ∃ live', Filed l.config l.queue (r.apply d.requests) live' ∧
      ∀ c ∈ live', (∃ c' ∈ live, c.Renews c') ∨ c.offset ∈ op.delivers c.group c.kind.path := by
  cases op with
  | pop p =>
    obtain ⟨turn, -, ⟨-, -, rfl⟩ | ⟨-, -, rfl⟩⟩ := popDecision_eq_ok decided
    · refine ⟨live, ?_, fun c hc => Or.inl ⟨c, hc, .refl c⟩⟩
      rw [settle_requests]
      exact filed
    · refine ⟨{c | c = .ofPop id p ∨ c ∈ live ∧ id ≠ c.operation}, ?_, ?_⟩
      · rw [Act.puts_eq_replacement]
        refine filed.replace distinct (by simp) (fun c hc => ?_) (by simp) fun c => ?_
        · obtain rfl := List.mem_singleton.1 hc
          exact (checkTurn_eq_ok turn).1
        · simp [CheckPoint.ofPop]
      · rintro c (rfl | ⟨hc, -⟩)
        · exact Or.inr ⟨rfl, rfl, rfl⟩
        · exact Or.inl ⟨c, hc, .refl c⟩
  | ack a =>
    obtain ⟨c, found, requests⟩ := requests_of_ackDecision decided
    refine ⟨live \ {c}, ?_, fun c' hc' => Or.inl ⟨c', hc'.1, .refl c'⟩⟩
    rw [requests]
    exact filed.deletes distinct (filed.mem_of_found found).1
  | renewal w =>
    obtain ⟨-, c, found, rfl⟩ := renewDecision_eq_ok decided
    have hc := (filed.mem_of_found found).1
    refine ⟨_, filed.moves distinct hc w.nextVisible, ?_⟩
    rintro c' (rfl | ⟨hc', -⟩)
    · exact Or.inl ⟨c, hc, ⟨rfl, rfl, rfl⟩⟩
    · exact Or.inl ⟨c', hc', .refl c'⟩

end Ledger

/-- A snapshot that was taken of a ledger of the queue which leads what was in flight. -/
structure Snapshot.Leads (tables : Config) (q : QueueId) (s : Snapshot) : Prop where
  own : ∀ c ∈ s.checkPoints, c.queue = q
  single : ∀ c ∈ s.checkPoints, ∀ c' ∈ s.checkPoints, c.operation = c'.operation → c = c'
  source : ∃ l : Ledger, l.config = tables ∧ s.groups = l.images ∧ l.Leads {c | c ∈ s.checkPoints}

namespace Command

/-- The pops do not end at the last offset, and the snapshots were taken of the queue. -/
def Faithful (l : Ledger) : Command → Prop
  | replay id op => (Command.replay id op).Bounded
  | load s => s.Leads l.config l.queue
  | _ => True

variable {l : Ledger} {r : Rows} {live : Set CheckPoint} {d : Decision}

/-- **One call keeps the lead.** -/
theorem leads_of_decision (distinct : l.config.distinct) (filed : Filed l.config l.queue r live)
    (leads : l.Leads live) {c : Command} (may : c.Faithful l) (decided : c.decision l r = .ok d) :
    ∃ live', Filed l.config l.queue (r.apply d.requests) live' ∧ d.ledger.Leads live' := by
  cases c with
  | replay id op =>
    obtain ⟨live', filed', leaves⟩ := Ledger.filed_of_replay distinct filed decided
    exact ⟨live', filed', (leads.replay filed may decided leaves).1⟩
  | takeSnapshot =>
    obtain ⟨existing, -, decided⟩ := bind_eq_ok.1 (show l.scanned r >>= _ = _ from decided)
    cases decided
    exact ⟨live, filed, leads⟩
  | load s =>
    obtain ⟨own, single, l', config, images, leads'⟩ := may
    obtain ⟨groups, existing, restored, -, scan, rfl⟩ := Ledger.loadDecision_eq_ok decided
    have mem := filed.mem_of_scanned scan
    refine ⟨{c | c ∈ s.checkPoints}, ?_, ?_⟩
    · refine filed.replace distinct (fun c hc => ?_) own single fun c => ?_
      · exact (mem c).1 (List.mem_filter.1 hc).1
      · constructor
        · exact Or.inl
        · rintro (hc | ⟨hc, stays, free⟩)
          · exact hc
          · exact Ledger.mem_of_not_outdated ((mem c).2 hc) stays
    · rw [images, ← config, leads'.tracked.restoreGroups_images] at restored
      cases restored
      exact leads'.congr rfl config.symm
  | clear =>
    obtain ⟨existing, scan, rfl⟩ := Ledger.clearDecision_eq_ok decided
    have mem := filed.mem_of_scanned scan
    refine ⟨∅, ?_, .empty l.queue l.config⟩
    exact filed.replace distinct (fun c hc => (mem c).1 hc) (by simp) (by simp)
      fun c => by simp [mem]
  | release s =>
    cases decided
    exact ⟨live, filed, leads⟩

end Command

namespace Moment

/-- The policy of an owner who may try any operation again, and loads snapshots that it took
itself. -/
def Persistent (m : Moment) : Command → Prop
  | .replay id op => (Command.replay id op).Bounded
  | .load s => s ∈ m.taken
  | _ => True

/-- The counters lead what is in flight, and do so in every snapshot that was taken. -/
structure Led (queue : QueueId) (config : Config) (m : Moment) (live : Set CheckPoint) : Prop where
  queue_eq : m.site.ledger.queue = queue
  config_eq : m.site.ledger.config = config
  filed : Filed m.site.ledger.config m.site.ledger.queue m.site.rows live
  leads : m.site.ledger.Leads live
  taken : ∀ s ∈ m.taken, s.Leads config queue

variable {queue : QueueId} {config : Config} {host : Host} {m : Moment} {live : Set CheckPoint}

theorem led_start (distinct : config.distinct)
    (bare : ∀ a, Owned config queue a → host.store.rows.get a.space a.key = none) :
    Led queue config (.start queue config host) ∅ where
  queue_eq := rfl
  config_eq := rfl
  filed := (Mirrors.of_none bare).filed distinct
  leads := .empty queue config
  taken s hs := by cases hs

theorem Led.faithful (led : Led queue config m live) {c : Command} (may : m.Persistent c) :
    c.Faithful m.site.ledger := by
  cases c with
  | replay id op => exact may
  | load s =>
    show s.Leads m.site.ledger.config m.site.ledger.queue
    rw [led.config_eq, led.queue_eq]
    exact led.taken s may
  | takeSnapshot => trivial
  | clear => trivial
  | release s => trivial

theorem Led.distinct (distinct : config.distinct) (led : Led queue config m live) :
    m.site.ledger.config.distinct := by
  rw [led.config_eq]
  exact distinct

/-- A snapshot that is taken shows a ledger that leads. -/
theorem Led.snapshot (led : Led queue config m live) {c : Command} {s : Snapshot}
    (given : (c.act m.site).1 = .ok (some s)) : s.Leads config queue := by
  obtain ⟨-, -, images, scan⟩ := Command.taken_spec given
  have mem := led.filed.mem_of_scanned scan
  have shown : {c | c ∈ s.checkPoints} = live := Set.ext mem
  refine ⟨fun c hc => ?_, fun c hc c' hc' => ?_, m.site.ledger, led.config_eq, images, ?_⟩
  · rw [← led.queue_eq]
    exact led.filed.own c ((mem c).1 hc)
  · exact led.filed.eq_of_operation ((mem c).1 hc) ((mem c').1 hc')
  · rw [shown]
    exact led.leads

theorem Led.after (distinct : config.distinct) (led : Led queue config m live) {c : Command}
    (may : m.Persistent c) : ∃ live', Led queue config (m.after c) live' := by
  have distinct' := led.distinct distinct
  have taken : ∀ s ∈ (m.after c).taken, s.Leads config queue := by
    intro s hs
    rcases mem_taken_after hs with old | given
    · exact led.taken s old
    · exact led.snapshot given
  rcases c.act_cases m.site with ⟨e, -, quiet, -⟩ | ⟨d, decided, -, moves⟩
  · rw [← after_site] at quiet
    refine ⟨live, ?_, ?_, ?_, ?_, taken⟩
    · rw [quiet.ledger, led.queue_eq]
    · rw [quiet.ledger, led.config_eq]
    · rw [quiet.ledger, quiet.rows]
      exact led.filed
    · rw [quiet.ledger]
      exact led.leads
  · rw [← after_site] at moves
    obtain ⟨own, config'⟩ := Command.stays_of_decision decided
    obtain ⟨live', filed, leads⟩ :=
      Command.leads_of_decision distinct' led.filed led.leads (led.faithful may) decided
    refine ⟨live', ?_, ?_, ?_, ?_, taken⟩
    · rw [moves.ledger, own, led.queue_eq]
    · rw [moves.ledger, config', led.config_eq]
    · rw [moves.ledger, own, config', moves.rows]
      exact filed
    · rw [moves.ledger]
      exact leads

theorem led_of_reached (distinct : config.distinct)
    (bare : ∀ a, Owned config queue a → host.store.rows.get a.space a.key = none)
    (run : Reached Persistent (.start queue config host) m) : ∃ live, Led queue config m live := by
  refine run.induction (motive := fun m => ∃ live, Led queue config m live)
    ⟨∅, led_start distinct bare⟩ fun m c led may => ?_
  obtain ⟨live, led⟩ := led
  exact led.after distinct may

end Moment

/-- **Acknowledgment never overtakes delivery.** Start with an empty ledger on any host whose store
has no row of the queue, and make any calls of a persistent owner: replays at any operation ids,
snapshots, loads of these, and clears. Then on each path of every group the ack offset is at most
the consume offset and is that of the watermark, and every delivery in flight lies below the consume
offset of its group on its path. No replay lowers a counter or the cursor, whether it succeeds or
fails. -/
theorem Reached.acked_le_consumed {queue : QueueId} {config : Config} {host : Host} {m : Moment}
    (distinct : config.distinct)
    (bare : ∀ a, Owned config queue a → host.store.rows.get a.space a.key = none)
    (run : Reached Moment.Persistent (.start queue config host) m) :
    (∀ g path,
      (m.site.ledger.counters g).acked path ≤ (m.site.ledger.counters g).consumed path ∧
      (m.site.ledger.counters g).acked path =
        ((m.site.ledger.group g).watermark path).ackOffset) ∧
    (∃ cs, m.site.ledger.scanned m.site.rows = .ok cs ∧
      ∀ c ∈ cs, c.offset < (m.site.ledger.counters c.group).consumed c.kind.path) ∧
    ∀ id op, (Command.replay id op).Bounded →
      let after := (m.after (.replay id op)).site.ledger
      m.site.ledger.Rises after ∧ ∀ n ∈ m.site.ledger.cursor, ∃ n' ∈ after.cursor, n ≤ n' := by
  obtain ⟨live, led⟩ := Moment.led_of_reached distinct bare run
  refine ⟨fun g path => ⟨led.leads.acked_le g path, (led.leads.tracked.group g).acked path⟩, ?_,
    fun id op ends => ?_⟩
  · obtain ⟨cs, scan, mem, -⟩ := led.filed.scanned
    exact ⟨cs, scan, fun c hc => led.leads.offset_lt ((mem c).1 hc)⟩
  · dsimp only
    rw [Moment.after_site]
    rcases (Command.replay id op).act_cases m.site with ⟨e, -, quiet, -⟩ | ⟨d, decided, -, moves⟩
    · rw [quiet.ledger]
      exact ⟨⟨fun _ _ => UInt64.le_refl _, fun _ _ => UInt64.le_refl _⟩,
        fun n hn => ⟨n, hn, UInt64.le_refl n⟩⟩
    · have distinct' := led.distinct distinct
      obtain ⟨live', -, leaves⟩ := Ledger.filed_of_replay distinct' led.filed decided
      rw [moves.ledger]
      refine ⟨(led.leads.replay led.filed ends decided leaves).2, fun n hn => ?_⟩
      rcases (Ledger.follows_of_replay decided).cursor with same | ⟨id', here, above⟩
      · exact ⟨n, same.trans hn, UInt64.le_refl n⟩
      · exact ⟨id', here, above n hn⟩

/-- A pop that pushes aside another one of the same id, a snapshot, an acknowledgment, and the
snapshot loaded: the delivery is in flight again, and the first pop still counts. -/
theorem Reached.acked_le_consumed_of_repeated :
    let first : Pop := ⟨⟨1, 0⟩, 5, 9, 3, .normal, 1000, 500, false, 0⟩
    let second : Pop := ⟨⟨1, 0⟩, 5, 1, 2, .normal, 1100, 500, false, 0⟩
    let ack : Ack := ⟨⟨1, 0⟩, 1, .normal, 1200⟩
    let one : Moment := (Moment.start ⟨1, 0⟩ .standard .fresh).after (.replay 1 (.pop first))
    let two : Moment := one.after (.replay 1 (.pop second))
    let taken : Moment := two.after .takeSnapshot
    let acked : Moment := taken.after (.replay 2 (.ack ack))
    let m : Moment := acked.after (.load taken.taken.head!)
    (acked.site.ledger.counters 5).ack = 2 ∧ (m.site.ledger.counters 5).ack = 0 ∧
      (m.site.ledger.counters 5).consume = 10 ∧
      m.site.ledger.scanned m.site.rows = .ok [.ofPop 1 second] ∧
      m.site.ledger.Rises (m.after (.replay 2 (.ack ack))).site.ledger := by
  intro first second ack one two taken acked m
  have run : Reached Moment.Persistent (.start ⟨1, 0⟩ .standard .fresh) one :=
    Reached.start.call (.replay 1 (.pop first)) (by show (9 : UInt64) < lastOffset; decide)
  have run : Reached Moment.Persistent (.start ⟨1, 0⟩ .standard .fresh) two :=
    run.call (.replay 1 (.pop second)) (by show (1 : UInt64) < lastOffset; decide)
  have run : Reached Moment.Persistent (.start ⟨1, 0⟩ .standard .fresh) taken :=
    run.call .takeSnapshot trivial
  have run : Reached Moment.Persistent (.start ⟨1, 0⟩ .standard .fresh) acked :=
    run.call (.replay 2 (.ack ack)) trivial
  have held : taken.taken.head! ∈ acked.taken := by decide +kernel
  have run : Reached Moment.Persistent (.start ⟨1, 0⟩ .standard .fresh) m :=
    run.call (.load taken.taken.head!) held
  have before : (acked.site.ledger.counters 5).ack = 2 := by decide +kernel
  have ack_eq : (m.site.ledger.counters 5).ack = 0 := by decide +kernel
  have consume_eq : (m.site.ledger.counters 5).consume = 10 := by decide +kernel
  have shown : (m.site.ledger.scanned m.site.rows).toOption = some [.ofPop 1 second] := by
    decide +kernel
  obtain ⟨-, ⟨cs, scan, -⟩, rises⟩ := Reached.acked_le_consumed (by decide) (by simp) run
  rw [scan] at shown
  cases shown
  exact ⟨before, ack_eq, consume_eq, scan, (rises 2 (.ack ack) trivial).1⟩

end QueueLedger
