import QueueLedger.Proofs.Bookkeeping
import QueueLedger.Proofs.DueTimers
import QueueLedger.Proofs.Preservation
/-!
# Watching a whole run

Those who watch a host see its counters and its error events. Over any run, with any failures on the
way, these agree with what the calls came to: each replay and each administrative call is counted
once, failed ones included, each failed replay is told of once, and the re-anchored bitmaps are the
commits that changed a base (`Service.Recorded.shows_outcomes`).

## Proof shape

A run is watched together with the list of its calls (`Service.Recorded`). What one call leaves on
the host is known (`Occurrence.notes`), if commits work where it starts, and that is what runs keep
(`Service.Proper.after`). So the host of a run has the traces of all its calls one after the other
(`Service.Recorded.notes`), and each counter is a sum over the list.
-/

namespace QueueLedger

/-! ### Runs and their calls -/

namespace Service

/-- What calls on any queues lead to, with the list of these calls. Offsets are before the last one,
and only snapshots that the run gave are loaded. -/
inductive Recorded (m₀ : Service) : List Occurrence → Service → Prop
  /-- No call was made. -/
  | start : Recorded m₀ [] m₀
  /-- One more call was made on some queue. -/
  | call {log : List Occurrence} {m : Service} (q : QueueId) (c : Command)
    (before : Recorded m₀ log m) (ends : c.Bounded)
    (known : ∀ snapshot, c = .load snapshot → ∃ q', snapshot ∈ m.taken q') :
    Recorded m₀ (log ++ [⟨q, c, m.registry.seat q⟩]) (m.after q c)

/-- What runs keep. -/
structure Proper (config : Config) (m : Service) : Prop where
  each : ∀ q, (m.registry.seat q).Proper config q
  taken : ∀ q, ∀ snapshot ∈ m.taken q, snapshot.Proper config.rebaseThreshold
  idle : m.registry.host.scope = none

variable {config : Config} {host : Host} {m : Service} {log : List Occurrence}

theorem proper_start (idle : host.scope = none) (early : host.store.rows.Early config) :
    Proper config (.start config host) where
  each q := by
    have ledger : ((Registry.start config host).seat q).ledger = .empty q config := by
      rw [Registry.seat_ledger]
      simp [Registry.ledgerOf, Registry.start, Registry.get?]
    have rows : ((Registry.start config host).seat q).rows = host.store.rows :=
      Registry.seat_rows (Registry.start config host) q
    refine ⟨by rw [start, ledger]; rfl, by rw [start, ledger]; rfl, ?_,
      by rw [start, rows]; exact early⟩
    rw [start, ledger]
    exact Ledger.every_empty q config
  taken _ _ h := (List.not_mem_nil h).elim
  idle := idle

/-- Opening a ledger is not counted, and is no error. -/
theorem notes_seat (r : Registry) (q : QueueId) : r.host.Notes id [] (r.seat q).host := by
  show r.host.Notes id [] (r.register q).host
  unfold Registry.register
  cases r.get? q with
  | some l => exact .refl r.host
  | none => exact r.host.notes_tell_of_ne (.opened q) rfl

namespace Proper

variable (h : Proper config m) (q : QueueId) {c : Command}
include h

theorem ready : (m.registry.seat q).Ready := by
  have proper := h.each q
  refine ⟨proper.groups.sound, proper.groups.marks, ?_⟩
  have early := proper.early
  rwa [← proper.config_eq] at early

theorem seat_idle : (m.registry.seat q).host.scope = none :=
  (notes_seat m.registry q).scope.trans h.idle

/-- What one call leaves on the host of a run. -/
theorem notes_call (ends : c.Bounded) :
    let o : Occurrence := ⟨q, c, m.registry.seat q⟩
    m.registry.host.Notes o.counted o.report?.toList (m.after q c).registry.host := by
  intro o
  have told := o.notes (h.ready q) ends (h.each q).queue_eq (h.seat_idle q)
  exact (notes_seat m.registry q).trans told

/-- **One call of a run.** -/
theorem after (ends : c.Bounded)
    (known : ∀ snapshot, c = .load snapshot → ∃ q', snapshot ∈ m.taken q') :
    Proper config (m.after q c) := by
  have loads : ∀ snapshot, c = .load snapshot → snapshot.Proper config.rebaseThreshold := by
    intro snapshot eq
    obtain ⟨q', given⟩ := known snapshot eq
    exact h.taken q' snapshot given
  have called : (c.act (m.registry.seat q)).2.Proper config q := (h.each q).act ends loads
  have rows : (m.after q c).registry.rows = (c.act (m.registry.seat q)).2.rows :=
    m.registry.call_rows q c.act
  -- All queues share the rows; the ledgers and the snapshots of the others are what they were.
  refine ⟨fun q' => ?_, fun q' snapshot given => ?_, ?_⟩
  · have ledger : ((m.after q c).registry.seat q').ledger =
        if q = q' then (c.act (m.registry.seat q)).2.ledger else (m.registry.seat q').ledger := by
      rw [Registry.seat_ledger, Registry.seat_ledger]
      exact m.registry.ledgerOf_call q c.act q'
    have early : ((m.after q c).registry.seat q').rows.Early config := by
      rw [Registry.seat_rows, rows]
      exact called.early
    by_cases same : q = q'
    · subst same
      rw [if_pos rfl] at ledger
      exact ⟨by rw [ledger, called.queue_eq], by rw [ledger, called.config_eq],
        by rw [ledger]; exact called.groups, early⟩
    · rw [if_neg same] at ledger
      exact ⟨by rw [ledger, (h.each q').queue_eq], by rw [ledger, (h.each q').config_eq],
        by rw [ledger]; exact (h.each q').groups, early⟩
  · by_cases same : q' = q
    · subst same
      have own : (m.after q' c).taken q' = ((m.moment q').after c).taken := (m.moment_after q' c).1
      rw [own] at given
      rcases Moment.mem_taken_after given with old | new
      · exact h.taken q' snapshot old
      · exact (h.each q').taken new
    · have others : (m.after q c).taken q' = m.taken q' := (m.moment_after_of_ne same c).1
      rw [others] at given
      exact h.taken q' snapshot given
  · exact (h.notes_call q ends).scope.trans h.idle

end Proper

/-! ### Sums over the calls -/

/-- The counters after some calls, one after the other. -/
def tallied (log : List Occurrence) (t : Tally) : Tally := log.foldl (fun t o => o.counted t) t

/-- A counter that each call raises by a number. -/
theorem read_tallied (read : Tally → Nat) (step : Occurrence → Nat)
    (each : ∀ t o, read (o.counted t) = read t + step o) (log : List Occurrence) (t : Tally) :
    read (tallied log t) = read t + (log.map step).sum := by
  induction log generalizing t with
  | nil => rfl
  | cons o log ih =>
    show read (tallied log (o.counted t)) = _
    rw [ih, each, List.map_cons, List.sum_cons, Nat.add_assoc]

/-- A counter that some of the calls raise by one. -/
theorem count_tallied (read : Tally → Nat) (p : Occurrence → Bool)
    (each : ∀ t o, read (o.counted t) = read t + if p o then 1 else 0) (log : List Occurrence)
    (t : Tally) : read (tallied log t) = read t + log.countP p := by
  rw [read_tallied read _ each]
  congr 1
  induction log with
  | nil => rfl
  | cons o log ih => rw [List.map_cons, List.sum_cons, ih, List.countP_cons, Nat.add_comm]

end Service

namespace Occurrence

variable (t : Tally) (o : Occurrence)

theorem counted_ofKind (kind : OperationKind) :
    (o.counted t).ofKind kind =
      ⟨(t.ofKind kind).total + if o.replays kind then 1 else 0,
        (t.ofKind kind).failed + if o.replays kind && o.fails then 1 else 0,
        (t.ofKind kind).timed + if o.replays kind then 1 else 0⟩ := by
  unfold counted replays
  cases o.command with
  | replay id op =>
    by_cases same : op.kind = kind <;> cases o.fails <;> simp [same, Tally.replayed]
  | takeSnapshot => simp
  | load snapshot => simp
  | clear => simp
  | release snapshot => simp

theorem counted_ofAdmin (kind : AdminKind) :
    (o.counted t).ofAdmin kind = t.ofAdmin kind + if o.administers kind then 1 else 0 := by
  unfold counted administers
  cases o.command with
  | replay id op => simp
  | takeSnapshot => simp [eq_comm]
  | load snapshot => simp [eq_comm]
  | clear => simp [eq_comm]
  | release snapshot => simp

theorem counted_rebases : (o.counted t).rebases = t.rebases + o.baseMoves := by
  unfold counted baseMoves settlement?
  cases o.command with
  | replay id op => simp
  | takeSnapshot => simp [Ledger.baseMoves]
  | load snapshot => simp [Ledger.baseMoves]
  | clear => simp [Ledger.baseMoves]
  | release snapshot => simp [Ledger.baseMoves]

end Occurrence

namespace Service.Recorded

variable {config : Config} {host : Host} {m : Service} {log : List Occurrence}

theorem proper (idle : host.scope = none) (early : host.store.rows.Early config)
    (run : Recorded (.start config host) log m) : m.Proper config := by
  induction run with
  | start => exact proper_start idle early
  | call q c before ends known ih => exact ih.after q ends known

/-- The host of a run has the traces of all its calls. -/
theorem notes (idle : host.scope = none) (early : host.store.rows.Early config)
    (run : Recorded (.start config host) log m) :
    host.Notes (tallied log) (log.filterMap Occurrence.report?) m.registry.host := by
  induction run with
  | start => exact .refl host
  | call q c before ends known ih =>
    have one := (before.proper idle early).notes_call q ends
    have all := ih.trans one
    refine ⟨all.tally.trans ?_, all.errors.trans ?_, all.scope⟩
    · rw [tallied, tallied, List.foldl_append]
      rfl
    · rw [List.filterMap_append, List.filterMap_cons, List.filterMap_nil]
      cases Occurrence.report? _ <;> rfl

/-- What a replay of a run does to the watermarks. -/
theorem marks (idle : host.scope = none) (early : host.store.rows.Early config)
    (run : Recorded (.start config host) log m) {o : Occurrence} (ho : o ∈ log) {id : UInt64}
    {op : Operation} (replay : o.command = .replay id op) (g : UInt64) (path : Path) :
    (o.after.ledger.group g).watermark path =
      ((o.site.ledger.group g).watermark path).attempts
        (Settlement.commits o.settlement? g path) := by
  induction run with
  | start => exact (List.not_mem_nil ho).elim
  | call q c before ends known ih =>
    rcases List.mem_append.1 ho with old | new
    · exact ih old
    · obtain rfl := List.mem_singleton.1 new
      have proper := before.proper idle early
      obtain rfl : c = .replay id op := replay
      exact (Occurrence.notes_replay (proper.ready q) ends (proper.each q).queue_eq
        (proper.seat_idle q)).2 g path

/-! ### The main statement -/

/-- **Counters and error events agree with what the calls came to.** Start with a host on which no
call is under way and no check point ends at the last offset, an empty one for instance. Make any
calls on any queues, with any schedule of refusals, whether they succeed or fail; offsets are before
the last one, and only snapshots that the run gave are loaded. Then

* for each kind of operation, as many replays were counted and timed as were made, and as many
  failures as there were replays that returned an error;
* the new error events are one for each failed replay, in order, with the text of the error that it
  returned;
* for each kind of administrative call, as many were counted as were made, whether they failed or
  not;
* the bitmaps were re-anchored as often as the commit of an offset changed the base of its
  watermark.

What a replay commits is its settlement, one offset after the other, and that is all it does to the
watermarks. -/
theorem shows_outcomes (idle : host.scope = none) (early : host.store.rows.Early config)
    (run : Recorded (.start config host) log m) :
    (∀ kind, m.registry.host.tally.ofKind kind =
      ⟨(host.tally.ofKind kind).total + log.countP (·.replays kind),
        (host.tally.ofKind kind).failed + log.countP (fun o => o.replays kind && o.fails),
        (host.tally.ofKind kind).timed + log.countP (·.replays kind)⟩) ∧
    m.registry.host.errors = host.errors ++ log.filterMap Occurrence.report? ∧
    (∀ kind, m.registry.host.tally.ofAdmin kind =
      host.tally.ofAdmin kind + log.countP (·.administers kind)) ∧
    m.registry.host.tally.rebases = host.tally.rebases + (log.map Occurrence.baseMoves).sum ∧
    ∀ o ∈ log, ∀ id op, o.command = .replay id op → ∀ g path,
      (o.after.ledger.group g).watermark path =
        ((o.site.ledger.group g).watermark path).attempts
          (Settlement.commits o.settlement? g path) := by
  have notes := run.notes idle early
  refine ⟨fun kind => ?_, notes.errors, fun kind => ?_, ?_, fun o ho id op replay g path =>
    run.marks idle early ho replay g path⟩
  · rw [notes.tally]
    have total : ((tallied log host.tally).ofKind kind).total = _ :=
      count_tallied (fun t => (t.ofKind kind).total) (·.replays kind)
        (fun t o => by rw [o.counted_ofKind]) log host.tally
    have failed : ((tallied log host.tally).ofKind kind).failed = _ :=
      count_tallied (fun t => (t.ofKind kind).failed) (fun o => o.replays kind && o.fails)
        (fun t o => by rw [o.counted_ofKind]) log host.tally
    have timed : ((tallied log host.tally).ofKind kind).timed = _ :=
      count_tallied (fun t => (t.ofKind kind).timed) (·.replays kind)
        (fun t o => by rw [o.counted_ofKind]) log host.tally
    rw [← total, ← failed, ← timed]
  · rw [notes.tally]
    exact count_tallied (·.ofAdmin kind) (·.administers kind)
      (fun t o => o.counted_ofAdmin t kind) log host.tally
  · rw [notes.tally]
    exact read_tallied (·.rebases) Occurrence.baseMoves
      (fun t o => o.counted_rebases t) log host.tally

/-- Seven calls on two queues, three of which fail: a pop behind the cursor, a snapshot that the
store refuses, and an acknowledgment of nothing. Of five commits two change a base, the second one
that of a watermark that was loaded in between. -/
theorem shows_outcomes_reloaded :
    let pop (operation offset : UInt64) (count : UInt32) : Command :=
      .replay operation (.pop ⟨⟨1, 0⟩, 5, offset, count, .normal, 1000, 500, true, 0⟩)
    let ack : Command := .replay 1 (.ack ⟨⟨1, 1⟩, 9, .normal, 2000⟩)
    let config : Config := { Config.standard with rebaseThreshold := 2 }
    let host : Host := { Host.fresh with
      outages := ⟨fun call n => decide (call = .takeSnapshot ∧ n = 1), .zero⟩ }
    let taken := (((Service.start config host).after ⟨1, 0⟩ (pop 1 2 3)).after
      ⟨1, 0⟩ (pop 0 3 1)).after ⟨1, 0⟩ .takeSnapshot
    let snapshot := ((taken.taken ⟨1, 0⟩).head?).getD default
    let refused := taken.after ⟨1, 0⟩ .takeSnapshot
    let loaded := refused.after ⟨1, 0⟩ (.load snapshot)
    let m := (loaded.after ⟨1, 1⟩ ack).after ⟨1, 0⟩ (pop 2 4 2)
    m.registry.host.tally = ⟨⟨3, 1, 3⟩, ⟨1, 1, 1⟩, ⟨0, 0, 0⟩, 2, 1, 0, 2⟩ ∧
      m.registry.host.errors.length = 2 ∧
      ∃ log : List Occurrence, log.length = 7 ∧ Recorded (.start config host) log m ∧
        log.countP (fun o => o.replays .pop && o.fails) = 1 ∧
        (log.filterMap Occurrence.report?).length = 2 ∧ (log.map Occurrence.baseMoves).sum = 2 := by
  intro pop ack config host taken snapshot refused loaded m
  have tally : m.registry.host.tally = ⟨⟨3, 1, 3⟩, ⟨1, 1, 1⟩, ⟨0, 0, 0⟩, 2, 1, 0, 2⟩ := by
    decide +kernel
  have errors : m.registry.host.errors.length = 2 := by decide +kernel
  have early : host.store.rows.Early config := by
    intro key value c row
    rw [show host.store.rows.get config.checkPoints key = none from Host.get_fresh _ key] at row
    cases row
  have given : refused.taken ⟨1, 0⟩ = [snapshot] := by decide +kernel
  have known (other : Snapshot) (eq : Command.load snapshot = .load other) :
      ∃ q', other ∈ refused.taken q' := by
    refine ⟨⟨1, 0⟩, ?_⟩
    rw [given, ← Command.load.inj eq]
    exact List.mem_singleton_self snapshot
  have replay {m : Service} (operation : UInt64) (o : Operation) (other : Snapshot) :
      Command.replay operation o = .load other → ∃ q', other ∈ m.taken q' := nofun
  have take {m : Service} (other : Snapshot) :
      Command.takeSnapshot = .load other → ∃ q', other ∈ m.taken q' := nofun
  have run : ∃ log : List Occurrence, log.length = 7 ∧ Recorded (.start config host) log m := by
    refine ⟨_, ?_, ((((((Recorded.start.call ⟨1, 0⟩ (pop 1 2 3) ?_ (replay _ _)).call
      ⟨1, 0⟩ (pop 0 3 1) ?_ (replay _ _)).call ⟨1, 0⟩ .takeSnapshot trivial take).call
      ⟨1, 0⟩ .takeSnapshot trivial take).call ⟨1, 0⟩ (.load snapshot) trivial known).call
      ⟨1, 1⟩ ack trivial (replay _ _)).call ⟨1, 0⟩ (pop 2 4 2) ?_ (replay _ _)⟩
    · rfl
    · show (2 : UInt64) < lastOffset
      decide
    · show (3 : UInt64) < lastOffset
      decide
    · show (4 : UInt64) < lastOffset
      decide
  clear_value m
  obtain ⟨log, length, run⟩ := run
  obtain ⟨kinds, told, -, rebases, -⟩ := run.shows_outcomes rfl early
  refine ⟨tally, errors, log, length, run, ?_, ?_, ?_⟩
  · have failed : (m.registry.host.tally.ofKind .pop).failed =
        0 + log.countP (fun o => o.replays .pop && o.fails) :=
      congrArg ReplayTally.failed (kinds .pop)
    rw [tally, Nat.zero_add] at failed
    exact failed.symm
  · have none : host.errors = [] := rfl
    rwa [told, none, List.nil_append] at errors
  · have start : host.tally.rebases = 0 := rfl
    rw [tally, start, Nat.zero_add] at rebases
    exact rebases.symm

end Service.Recorded

end QueueLedger
