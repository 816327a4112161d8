import QueueLedger.DueTimer
import QueueLedger.Proofs.Isolation
/-!
# Due timers of all queues

The timers of all queues lie in one table. Looking for those that are due finds exactly the timers
of the live check points of all queues that became visible before the present, in the order of
their keys, up to the limit (`Service.Reached.finds_due`).

## Proof shape

What a search finds is settled by the rows alone: if the tables of every queue are coherent, and
the table of timers holds nothing else, then its rows are the image of the live check points of all
queues (`Undisturbed.timer_iff`). The keys lie in the order of due times, so the rows before the
present are those that are due, and the first of them come out first (`Undisturbed.find_eq`).

That the tables of every queue are coherent is carried through runs on many queues
(`Service.Kept.after`). A call keeps the tables of its own queue coherent, which is a fact about
one queue already known (`Moment.Kept.after`); and it leaves the rows of the others alone.
-/

namespace QueueLedger

/-! ### What a search reads -/

namespace DueTimer

/-- The timer of a delivery. -/
def ofCheckPoint (c : CheckPoint) : DueTimer := ⟨c.timerKey, c.receipt⟩

/-- The timer row of a delivery. -/
def row (c : CheckPoint) : Bytes × Bytes := (c.timerKey.encode, c.receipt.encode)

theorem mapM_ofRow (cs : List CheckPoint) :
    (cs.map row).mapM ofRow = .ok (cs.map ofCheckPoint) := by
  refine mapM_map_eq_ok (fun c => ?_) cs
  simp only [ofRow, row, TimerKey.decode_encode, Receipt.decode_encode]
  rfl

/-- A search that the store answers reads the first rows before the present. -/
theorem find_answered {h : Host} (answered : h.outages.refusesNext .iterate = false)
    (tables : Config) (now : UInt64) (limit : Nat) :
    (find tables now limit h).1 =
      (((Range.upTo (TimerKey.horizon now)).select (h.store.rows.inSpace tables.timers)).take
        limit).mapM ofRow := by
  unfold find
  by_cases none : limit = 0
  · rw [if_pos none, none, List.take_zero]
    rfl
  · have some : (#[] : Array (Bytes × Bytes)).size < limit := Nat.pos_of_ne_zero none
    rw [if_neg none, Host.iterate, Host.attempt_answered answered]
    dsimp only
    rw [Store.iterate, toList_walk_collectUpTo _ _ some]
    rfl

end DueTimer

/-! ### The timers of all queues -/

/-- The tables of every queue are coherent, and there are no timers but theirs. -/
structure Undisturbed (tables : Config) (r : Rows) : Prop where
  coherent : ∀ q, Coherent tables q r
  timers : ∀ key, (∀ q, ¬ Owned tables q ⟨tables.timers, key⟩) → r.get tables.timers key = none

namespace Undisturbed

variable {tables : Config} {r : Rows} {h : Host} {now : UInt64}

/-- The table of timers is the image of the live check points of all queues. -/
theorem timer_iff (distinct : tables.distinct) (u : Undisturbed tables r) {key value : Bytes} :
    r.get tables.timers key = some value ↔
      ∃ c, Standing tables c.queue r c ∧ (key, value) = DueTimer.row c := by
  constructor
  · intro present
    have owned : ∃ q, Owned tables q ⟨tables.timers, key⟩ := by
      by_contra foreign
      rw [u.timers key (not_exists.1 foreign)] at present
      cases present
    obtain ⟨ct, cl, tl⟩ := distinct
    obtain ⟨q, ⟨space, -⟩ | ⟨-, due, operation, rfl⟩ | ⟨space, -⟩⟩ := owned
    · exact absurd space.symm ct
    · obtain ⟨c, standing, key, rfl⟩ := ((u.coherent q).timers due operation value).1 present
      refine ⟨c, ?_, by rw [DueTimer.row, key]⟩
      rw [standing.1]
      exact standing
    · exact absurd space tl
  · rintro ⟨c, standing, eq⟩
    cases eq
    exact ((u.coherent c.queue).timers c.nextVisible c.operation c.receipt.encode).2
      ⟨c, standing, rfl, rfl⟩

/-- The rows before the present are the timers that are due, in the order of their keys. -/
theorem select_eq (distinct : tables.distinct) (u : Undisturbed tables r) (now : UInt64) :
    ∃ due : List CheckPoint,
      (Range.upTo (TimerKey.horizon now)).select (r.inSpace tables.timers) = due.map DueTimer.row ∧
      (due.Pairwise fun c c' => compare c.timerKey c'.timerKey = .lt) ∧
      ∀ c, c ∈ due ↔ Standing tables c.queue r c ∧ c.nextVisible < now := by
  have mem {row : Bytes × Bytes} :
      row ∈ (Range.upTo (TimerKey.horizon now)).select (r.inSpace tables.timers) ↔
        ∃ c, (Standing tables c.queue r c ∧ c.nextVisible < now) ∧ row = DueTimer.row c := by
    obtain ⟨key, value⟩ := row
    have before (c : CheckPoint) :
        (Range.upTo (TimerKey.horizon now)).holds c.timerKey.encode = true ↔
          c.nextVisible < now := by
      simp only [Range.holds, Range.fromStart, Range.beforeStop, Range.inStem, Range.upTo,
        Option.all_none, Option.all_some, Bool.true_and, Bool.and_true, TimerKey.before_horizon,
        CheckPoint.timerKey]
    rw [Rows.mem_select, u.timer_iff distinct]
    constructor
    · rintro ⟨⟨c, standing, eq⟩, inside⟩
      cases eq
      exact ⟨c, ⟨standing, (before c).1 inside⟩, rfl⟩
    · rintro ⟨c, ⟨standing, early⟩, eq⟩
      cases eq
      exact ⟨⟨c, standing, rfl⟩, (before c).2 early⟩
  obtain ⟨due, rows, sound⟩ := exists_eq_map fun row h => mem.1 h
  have ascending := r.ascending_select (.upTo (TimerKey.horizon now)) tables.timers
  rw [rows, Range.Ascending, List.pairwise_map] at ascending
  refine ⟨due, rows, ascending.imp fun before => TimerKey.encode_before.1 before,
    fun c => ⟨sound c, ?_⟩⟩
  intro live
  have listed := mem.2 ⟨c, live, rfl⟩
  rw [rows] at listed
  obtain ⟨c', hc', eq⟩ := List.mem_map.1 listed
  -- Equal timers are of one queue and one operation, and an operation leaves one check point.
  have timer : c'.timerKey = c.timerKey := TimerKey.encode_inj.1 (Prod.mk.inj eq).1
  have queue : c'.queue = c.queue := congrArg TimerKey.queue timer
  have key : c'.key = c.key :=
    CheckPoint.keyOf_inj.2 ⟨queue, congrArg TimerKey.operation timer⟩
  have standing' := (sound c' hc').1
  rw [queue] at standing'
  rwa [← standing'.eq_of_key live.1 key]

/-- A search finds the first of the timers that are due. -/
theorem find_eq (distinct : tables.distinct) (u : Undisturbed tables h.store.rows)
    (answered : h.outages.refusesNext .iterate = false) (now : UInt64) :
    ∃ due : List CheckPoint,
      (due.Pairwise fun c c' => compare c.timerKey c'.timerKey = .lt) ∧
      (∀ c, c ∈ due ↔ Standing tables c.queue h.store.rows c ∧ c.nextVisible < now) ∧
      ∀ limit, (DueTimer.find tables now limit h).1 =
        .ok ((due.take limit).map DueTimer.ofCheckPoint) := by
  obtain ⟨due, rows, sorted, mem⟩ := u.select_eq distinct now
  refine ⟨due, sorted, mem, fun limit => ?_⟩
  rw [DueTimer.find_answered answered, rows, ← List.map_take, DueTimer.mapM_ofRow]

end Undisturbed

/-! ### Runs on many queues -/

/-- A registry in service, and the snapshots that each queue has taken so far. -/
structure Service where
  registry : Registry
  taken : QueueId → List Snapshot

namespace Service

/-- The service before the first call. -/
def start (config : Config) (host : Host) : Service := ⟨.start config host, fun _ => []⟩

/-- The moment that the service is for the owner of a queue. -/
def moment (m : Service) (q : QueueId) : Moment := ⟨m.registry.seat q, m.taken q⟩

/-- The service after a call on a queue, whether it succeeds or fails. -/
def after (m : Service) (q : QueueId) (c : Command) : Service where
  registry := (m.registry.call q c.act).2
  taken := Function.update m.taken q ((m.moment q).after c).taken

/-- What orderly calls on any queues lead to. -/
inductive Reached (m₀ : Service) : Service → Prop
  /-- No call was made. -/
  | start : Reached m₀ m₀
  /-- One more call was made on some queue. -/
  | call {m : Service} (q : QueueId) (c : Command) (before : Reached m₀ m)
    (may : (m.moment q).Orderly c) : Reached m₀ (m.after q c)

/-- What orderly calls keep: every queue is as an orderly run leaves it, and the rows of no queue
are those of the start. -/
structure Kept (config : Config) (first : Rows) (m : Service) (live : QueueId → Set CheckPoint) :
    Prop where
  each : ∀ q, (m.moment q).Kept q config m.registry.rows (live q)
  frame : ∀ a, (∀ q, ¬ Owned config q a) →
    m.registry.rows.get a.space a.key = first.get a.space a.key

variable {config : Config} {first : Rows} {m : Service} {live : QueueId → Set CheckPoint}
  {q : QueueId}

theorem kept_start {host : Host}
    (bare : ∀ q a, Owned config q a → host.store.rows.get a.space a.key = none) :
    Kept config host.store.rows (.start config host) fun _ => ∅ where
  each q := by
    have ledger : ((start config host).moment q).site.ledger = .empty q config := by
      show ((Registry.start config host).seat q).ledger = _
      rw [Registry.seat_ledger]
      simp [Registry.ledgerOf, Registry.start, Registry.get?]
    have rows : ((start config host).moment q).site.rows = host.store.rows :=
      Registry.seat_rows (Registry.start config host) q
    refine ⟨by rw [ledger]; rfl, by rw [ledger]; rfl, ?_, fun s hs => (List.not_mem_nil hs).elim,
      fun a _ => by rw [rows]; rfl⟩
    rw [ledger, rows]
    exact ⟨.of_none (bare q), fun c hc => hc.elim⟩
  frame _ _ := rfl

/-- The queue that is called finds itself where its own run has led. -/
theorem moment_after (m : Service) (q : QueueId) (c : Command) :
    ((m.after q c).moment q).taken = ((m.moment q).after c).taken ∧
      ((m.after q c).moment q).site.ledger = ((m.moment q).after c).site.ledger ∧
      ((m.after q c).moment q).site.rows = ((m.moment q).after c).site.rows := by
  refine ⟨Function.update_self .., ?_, ?_⟩
  · rw [Moment.after_site]
    show ((m.registry.call q c.act).2.seat q).ledger = _
    rw [Registry.seat_ledger, Registry.ledgerOf_call, if_pos rfl]
    rfl
  · rw [Moment.after_site]
    show ((m.registry.call q c.act).2.seat q).rows = _
    rw [Registry.seat_rows, Registry.call_rows]
    rfl

/-- Another queue has the ledger and the snapshots that it had. -/
theorem moment_after_of_ne (m : Service) {q q' : QueueId} (other : q' ≠ q) (c : Command) :
    ((m.after q c).moment q').taken = (m.moment q').taken ∧
      ((m.after q c).moment q').site.ledger = (m.moment q').site.ledger := by
  refine ⟨Function.update_of_ne other .., ?_⟩
  show ((m.registry.call q c.act).2.seat q').ledger = (m.registry.seat q').ledger
  rw [Registry.seat_ledger, Registry.seat_ledger, Registry.ledgerOf_call, if_neg (Ne.symm other)]

/-- One call of an orderly run. -/
theorem Kept.after (distinct : config.distinct) (k : Kept config first m live) {c : Command}
    (may : (m.moment q).Orderly c) : ∃ live', Kept config first (m.after q c) live' := by
  obtain ⟨now, kept, -⟩ := (k.each q).after distinct may
  obtain ⟨taken, ledger, rows⟩ := m.moment_after q c
  have seated (q' : QueueId) : ((m.after q c).moment q').site.rows = (m.after q c).registry.rows :=
    Registry.seat_rows _ q'
  have frame (a : Address) (foreign : ¬ Owned config q a) :
      (m.after q c).registry.rows.get a.space a.key = m.registry.rows.get a.space a.key := by
    rw [← seated q, rows]
    exact kept.frame a foreign
  refine ⟨Function.update live q now, fun q' => ?_, fun a foreign => ?_⟩
  · by_cases own : q' = q
    · subst own
      rw [Function.update_self]
      refine ⟨?_, ?_, ?_, ?_, fun a _ => by rw [seated]⟩
      · rw [ledger, kept.queue_eq]
      · rw [ledger, kept.config_eq]
      · rw [ledger, rows]
        exact kept.inFlight
      · rw [taken]
        exact kept.fits
    · rw [Function.update_of_ne own]
      obtain ⟨taken', ledger'⟩ := m.moment_after_of_ne own c
      have k' := k.each q'
      have mirrors := k'.inFlight.mirrors
      rw [k'.queue_eq, k'.config_eq] at mirrors
      refine ⟨by rw [ledger', k'.queue_eq], by rw [ledger', k'.config_eq], ⟨?_, ?_⟩, ?_,
        fun a _ => by rw [seated]⟩
      · rw [ledger', k'.queue_eq, k'.config_eq, seated]
        refine ⟨mirrors.own, fun a v owned => ?_⟩
        rw [frame a (not_owned_of_owned distinct own owned), ← mirrors.get_iff a v owned]
        exact Iff.of_eq (by rw [← Registry.seat_rows m.registry q']; rfl)
      · rw [ledger']
        exact k'.inFlight.covered
      · rw [taken']
        exact k'.fits
  · rw [frame a (foreign q), k.frame a foreign]

theorem kept_of_reached {host : Host} (distinct : config.distinct)
    (bare : ∀ q a, Owned config q a → host.store.rows.get a.space a.key = none)
    (run : Reached (.start config host) m) : ∃ live, Kept config host.store.rows m live := by
  induction run with
  | start => exact ⟨_, kept_start bare⟩
  | call q c before may ih =>
    obtain ⟨live, k⟩ := ih
    exact k.after distinct may

/-- The mirrored rows of a queue, on the registry's own rows. -/
theorem Kept.mirrors (k : Kept config first m live) (q : QueueId) :
    Mirrors config q m.registry.rows (live q) := by
  have mirrors := (k.each q).inFlight.mirrors
  rw [(k.each q).queue_eq, (k.each q).config_eq] at mirrors
  rwa [show (m.moment q).site.rows = m.registry.rows from
    Registry.seat_rows m.registry q] at mirrors

theorem Kept.undisturbed (distinct : config.distinct) (k : Kept config first m live)
    (none : ∀ key, first.get config.timers key = none) : Undisturbed config m.registry.rows where
  coherent q := (k.mirrors q).coherent distinct
  timers key foreign := (k.frame ⟨config.timers, key⟩ foreign).trans (none key)

/-! ### The main statement -/

/-- **The search for due timers is exact.** Start with three different tables that are empty, and
make orderly calls on any queues, with any schedule of refusals. Then there is one list of the live
check points of all queues that became visible before `now`, in the order of due time, topic, queue
and operation id; every search that the store answers succeeds and gives the keys and the receipts
of the first `limit` of them; and what is live is what the ledger of its queue lists and finds. -/
theorem Reached.finds_due {config : Config} {host : Host} {m : Service} (distinct : config.distinct)
    (bare : ∀ space key, space = config.checkPoints ∨ space = config.timers ∨ space = config.locks →
      host.store.rows.get space key = none)
    (run : Reached (.start config host) m)
    (answered : m.registry.host.outages.refusesNext .iterate = false) (now : UInt64) :
    (∃ due : List CheckPoint,
      (due.Pairwise fun c c' => compare c.timerKey c'.timerKey = .lt) ∧
      (∀ c, c ∈ due ↔ Standing config c.queue m.registry.rows c ∧ c.nextVisible < now) ∧
      ∀ limit, (DueTimer.find config now limit m.registry.host).1 =
        .ok ((due.take limit).map fun c => ⟨c.timerKey, c.receipt⟩)) ∧
    ∀ q, ∃ listed, (m.registry.ledgerOf q).scanned m.registry.rows = .ok listed ∧
      ∀ c, (c ∈ listed ↔ Standing config q m.registry.rows c) ∧
        (c ∈ listed → (m.registry.ledgerOf q).found m.registry.rows c.operation = .ok c) := by
  have empty (q : QueueId) (a : Address) (owned : Owned config q a) :
      host.store.rows.get a.space a.key = none := by
    refine bare a.space a.key ?_
    rcases owned with ⟨space, -⟩ | ⟨space, -⟩ | ⟨space, -⟩
    · exact Or.inl space
    · exact Or.inr (Or.inl space)
    · exact Or.inr (Or.inr space)
  obtain ⟨live, k⟩ := kept_of_reached distinct empty run
  have undisturbed := k.undisturbed distinct fun key => bare _ key (Or.inr (Or.inl rfl))
  refine ⟨undisturbed.find_eq distinct answered now, fun q => ?_⟩
  have ledger : (m.moment q).site.ledger = m.registry.ledgerOf q :=
    Registry.seat_ledger m.registry q
  have mirrors := k.mirrors q
  have filed : Filed (m.registry.ledgerOf q).config (m.registry.ledgerOf q).queue m.registry.rows
      (live q) := by
    rw [← ledger, (k.each q).queue_eq, (k.each q).config_eq]
    exact mirrors.filed distinct
  obtain ⟨listed, scan, mem, -⟩ := filed.scanned
  refine ⟨listed, scan, fun c => ⟨(mem c).trans (mirrors.mem_iff distinct), fun hc => ?_⟩⟩
  exact filed.found_of_mem ((mem c).1 hc)

/-- Two queues with three deliveries, the first of which is renewed; one of them becomes visible at
the present and is not due. -/
theorem Reached.finds_due_renewed :
    let pop (q : QueueId) (offset duration : UInt64) : Pop :=
      ⟨q, 5, offset, 1, .normal, 1000, duration, false, 0⟩
    let popped :=
      (Service.start .standard .fresh).after ⟨1, 0⟩ (.replay 1 (.pop (pop ⟨1, 0⟩ 9 100)))
    let beside := popped.after ⟨1, 1⟩ (.replay 1 (.pop (pop ⟨1, 1⟩ 9 400)))
    let again := beside.after ⟨1, 0⟩ (.replay 2 (.pop (pop ⟨1, 0⟩ 10 1000)))
    let m := again.after ⟨1, 0⟩ (.replay 3 (.renewal ⟨⟨1, 0⟩, 1, 1200, 500⟩))
    (DueTimer.find .standard 2000 10 m.registry.host).1 =
        .ok [⟨⟨1400, ⟨1, 1⟩, 1⟩, ⟨5, ⟨1, 1⟩, 9, 1⟩⟩, ⟨⟨1700, ⟨1, 0⟩, 1⟩, ⟨5, ⟨1, 0⟩, 9, 1⟩⟩] ∧
      ∃ due : List CheckPoint, due.length = 2 ∧
        ∀ c, c ∈ due ↔ Standing .standard c.queue m.registry.rows c ∧ c.nextVisible < 2000 := by
  intro pop popped beside again m
  have first : ((Service.start .standard .fresh).moment ⟨1, 0⟩).site.ledger.Above 1 := by
    decide +kernel
  have other : (popped.moment ⟨1, 1⟩).site.ledger.Above 1 := by decide +kernel
  have second : (beside.moment ⟨1, 0⟩).site.ledger.Above 2 := by decide +kernel
  have third : (again.moment ⟨1, 0⟩).site.ledger.Above 3 := by decide +kernel
  have run : Reached (.start .standard .fresh) m :=
    (((Reached.start.call ⟨1, 0⟩ (.replay 1 (.pop (pop ⟨1, 0⟩ 9 100))) first).call
      ⟨1, 1⟩ (.replay 1 (.pop (pop ⟨1, 1⟩ 9 400))) other).call
      ⟨1, 0⟩ (.replay 2 (.pop (pop ⟨1, 0⟩ 10 1000))) second).call
      ⟨1, 0⟩ (.replay 3 (.renewal ⟨⟨1, 0⟩, 1, 1200, 500⟩)) third
  have found : (DueTimer.find .standard 2000 10 m.registry.host).1 =
      .ok [⟨⟨1400, ⟨1, 1⟩, 1⟩, ⟨5, ⟨1, 1⟩, 9, 1⟩⟩, ⟨⟨1700, ⟨1, 0⟩, 1⟩, ⟨5, ⟨1, 0⟩, 9, 1⟩⟩] := by
    decide +kernel
  obtain ⟨⟨due, -, mem, search⟩, -⟩ := Reached.finds_due (by decide)
    (fun space key _ => Host.get_fresh space key) run (by decide +kernel) 2000
  refine ⟨found, due, ?_, mem⟩
  have same := search 10
  rw [found, Except.ok.injEq] at same
  have length := congrArg List.length same
  simp only [List.length_map, List.length_take, List.length_cons, List.length_nil] at length
  omega

end Service

end QueueLedger
