import QueueLedger.Proofs.DueTimers
import QueueLedger.Proofs.Lockstep
/-!
# Clearing and retiring queues

Clearing a queue leaves no row of it and touches nothing else, and retiring one does the same and
drops its ledger. A queue that is opened again then cannot be told from one that never was, and the
registry lists just the queues that were opened and not retired since
(`Service.Managed.leaves_no_trace`).

## Proof shape

Clearing finds the rows to remove by a scan of the check points. That these are all rows of the
queue is what orderly runs keep (`Service.Kept`), so it is carried over to runs that also open and
retire queues (`Service.Managed.kept`): opening a queue changes no ledger that can be read, and
neither does dropping one that was cleared. What a queue says after it was opened again is compared
with another registry where it is not known and has no row (`Registry.Without`). The two start as
twins, and twins stay twins whatever they are asked.
-/

namespace QueueLedger

/-! ### Whatever is asked -/

/-- Everything that a queue can be asked. -/
inductive Inquiry
  /-- A call, or a look at the deliveries or the locks. -/
  | errand (e : Errand)
  /-- The number of deliveries in flight. -/
  | checkPointCount
  /-- The counters of a group. -/
  | counters (group : UInt64)
  /-- The id of the operation that was applied last. -/
  | cursor

/-- What a queue says to that. -/
inductive Answer
  /-- What an errand brings back. -/
  | reply (r : Reply)
  /-- The number of deliveries in flight. -/
  | checkPointCount (n : Nat)
  /-- The counters of a group. -/
  | counters (c : GroupCounters)
  /-- The id of the operation that was applied last. -/
  | cursor (id : Option UInt64)

/-- The answer, but for the version of a view. -/
def Answer.unversioned : Answer → Answer
  | reply r => reply r.unversioned
  | answer => answer

/-- Asks the queue. -/
def Inquiry.act : Inquiry → Act Answer
  | errand e => Answer.reply <$> e.act
  | checkPointCount => Answer.checkPointCount <$> Act.checkPointCount
  | counters group => (fun l => Answer.counters (l.counters group)) <$> Act.ledger
  | cursor => (fun l => Answer.cursor l.cursor) <$> Act.ledger

/-- **One inquiry.** Twins give the same answer, but for versions of views, and stay twins. -/
theorem Inquiry.lockstep {tables : Config} {q : QueueId} (i : Inquiry) :
    Act.Lockstep tables q (fun a a' => a'.unversioned = a.unversioned) i.act i.act := by
  have look (f : Ledger → Answer) :
      Act.Lockstep tables q (fun a a' => a'.unversioned = a.unversioned)
        (f <$> Act.ledger) (f <$> Act.ledger) := by
    intro s s' twin
    rw [Act.map_run, Act.map_run, Act.ledger_run, Act.ledger_run, twin.ledger]
    exact ⟨.ok rfl, twin⟩
  cases i with
  | errand e => exact e.lockstep.map fun _ _ same => congrArg Answer.reply same
  | checkPointCount => exact Act.lockstep_checkPointCount.map fun _ _ same => by rw [same]
  | counters group => exact look _
  | cursor => exact look _

namespace Registry

/-- Asks a queue for one thing after the other, whether that succeeds or fails. -/
def ask (q : QueueId) : List Inquiry → Registry → List (Except Failure Answer) × Registry
  | [], r => ([], r)
  | i :: later, r =>
    let (answer, r') := r.call q i.act
    let (answers, r'') := ask q later r'
    (answer :: answers, r'')

variable {tables : Config} {q : QueueId} {r r' : Registry}

/-- A call that keeps in lockstep makes twins of twins. -/
theorem twin_call {α β : Type} {R : α → β → Prop} {x : Act α} {y : Act β}
    (h : Act.Lockstep tables q R x y) (twin : (r.seat q).Twin tables q (r'.seat q)) :
    Matched R (r.call q x).1 (r'.call q y).1 ∧
      ((r.call q x).2.seat q).Twin tables q ((r'.call q y).2.seat q) := by
  obtain ⟨answer, after⟩ := h _ _ twin
  refine ⟨answer, ?_, ?_, ?_, ?_, ?_⟩
  · simpa [ledgerOf_call] using after.queue
  · simpa [ledgerOf_call] using after.config
  · simpa [ledgerOf_call] using after.ledger
  · simpa using after.rows
  · rw [seat_outages, seat_outages]
    exact after.outages

/-- **Any inquiries.** Twins give the same answers, and stay twins. -/
theorem twin_ask (twin : (r.seat q).Twin tables q (r'.seat q)) (inquiries : List Inquiry) :
    (ask q inquiries r').1.map (·.map Answer.unversioned) =
        (ask q inquiries r).1.map (·.map Answer.unversioned) ∧
      ((ask q inquiries r).2.seat q).Twin tables q ((ask q inquiries r').2.seat q) := by
  induction inquiries generalizing r r' with
  | nil => exact ⟨rfl, twin⟩
  | cons i later ih =>
    obtain ⟨matched, twin'⟩ := twin_call i.lockstep twin
    obtain ⟨rest, end_⟩ := ih twin'
    exact ⟨congrArg₂ List.cons matched.map_eq rest, end_⟩

end Registry

/-! ### Clearing one queue -/

namespace Act

theorem bind_of_ok {α β : Type} {x : Act α} {s s' : Site} {a : α} (h : x s = (.ok a, s'))
    (f : α → Act β) : (x >>= f) s = f a s' := by
  rw [bind_run, h]

/-- A scan whose visit the store answers. -/
theorem scan_answered {s : Site} (answered : s.host.outages.refusesNext .iterate = false) :
    scan s = (s.ledger.scanned s.rows,
      { s with host := { s.host with outages := s.host.outages.count .iterate } }) := by
  simp only [scan, checkPointRows, bind_run, ledger_run, onHost, Host.iterate,
    Host.attempt_answered answered, pure_run, ofExcept_run, Store.iterate, toList_walk_collectAll]
  rfl

/-- A batch that the store answers. -/
theorem submit_answered {s : Site} (answered : s.host.outages.refusesNext .batch = false)
    (requests : List Request) : ∃ s', submit requests s = (.ok (), s') := by
  unfold submit
  split
  · exact ⟨s, rfl⟩
  · rw [onHost, Host.batch, Host.attempt_answered answered]
    exact ⟨_, rfl⟩

/-- Clearing makes no other calls on the store. -/
theorem clear_answered {s : Site} {existing : List CheckPoint}
    (found : s.ledger.scanned s.rows = .ok existing)
    (visit : s.host.outages.refusesNext .iterate = false)
    (batch : s.host.outages.refusesNext .batch = false) : (clear s).1 = .ok () := by
  -- The scan starts where the scope was opened and the call was counted.
  let s₁ : Site := { s with
    host := (s.host.inScope (some (.clear s.ledger.queue))).count (·.countAdmin .clear) }
  have scanned := scan_answered (s := s₁) visit
  rw [show s₁.ledger.scanned s₁.rows = .ok existing from found] at scanned
  obtain ⟨s₂, sent⟩ := submit_answered (s := { s₁ with
    host := { s₁.host with outages := s₁.host.outages.count .iterate } }) batch
    (replacement s.ledger.config existing [])
  show ((scan >>= fun existing => submit (replacement s.ledger.config existing []) >>= fun _ =>
    change (fun l => .empty l.queue l.config) >>= fun _ =>
      tell (.cleared existing.length)) s₁).1 = _
  rw [bind_of_ok scanned, bind_of_ok sent]
  rfl

/-- Clearing a queue whose rows are the image of its deliveries fails only when the store refuses
one of the two calls. If it does not fail, no delivery is left. -/
theorem clear_cases {s : Site} {live : Set CheckPoint} (distinct : s.ledger.config.distinct)
    (f : InFlight s.ledger s.rows live) :
    (∃ fault, (clear s).1 = .error (.store fault) ∧ s.Quiet (clear s).2 ∧
        (s.host.outages.refusesNext .iterate = true ∨ s.host.outages.refusesNext .batch = true)) ∨
      ∃ requests, (clear s).1 = .ok () ∧
        (clear s).2.ledger = .empty s.ledger.queue s.ledger.config ∧
        (clear s).2.host.store = s.host.store.apply requests ∧
        Remirrors s.ledger.config s.ledger.queue s.rows (clear s).2.rows ∅ := by
  obtain ⟨existing, scan, -⟩ := f.mirrors.scanned distinct
  rcases clear_does s with ⟨e, answer, quiet, wrong | ⟨-, fault, rfl⟩⟩ | ⟨d, decided, answer, done⟩
  · rw [Ledger.clearDecision, scan] at wrong
    cases wrong
  · refine Or.inl ⟨fault, answer, quiet, ?_⟩
    by_contra answered
    simp only [not_or, Bool.not_eq_true] at answered
    rw [clear_answered scan answered.1 answered.2] at answer
    cases answer
  · obtain ⟨existing', scan', rfl⟩ := Ledger.clearDecision_eq_ok decided
    refine Or.inr ⟨_, answer, done.ledger, done.store, ?_⟩
    rw [done.rows]
    exact f.clear distinct scan'

end Act

theorem Mirrors.get_of_empty {tables : Config} {q : QueueId} {r : Rows} {a : Address}
    (m : Mirrors tables q r ∅) (owned : Owned tables q a) : r.get a.space a.key = none := by
  cases row : r.get a.space a.key with
  | none => rfl
  | some v =>
    obtain ⟨c, hc, -⟩ := (m.get_iff a v owned).1 row
    exact hc.elim

/-! ### Which queues are registered -/

theorem QueueId.compare_eq_lt {q q' : QueueId} :
    compare q q' = .lt ↔ q.topic < q'.topic ∨ q.topic = q'.topic ∧ q.queue < q'.queue := by
  show (compare q.topic q'.topic).then (compare q.queue q'.queue) = .lt ↔ _
  rw [Ordering.then_eq_lt, Std.compare_eq_lt, Std.compare_eq_lt, Std.LawfulEqCmp.compare_eq_iff_eq]

namespace Registry

variable {α β : Type} {r r' : Registry} {q : QueueId} {config : Config}

theorem mem_queues : q ∈ r.queues ↔ (r.get? q).isSome := by
  rw [queues, Std.ExtTreeMap.mem_keys, Std.ExtTreeMap.mem_iff_isSome_getElem?]
  rfl

/-- The queues are listed in ascending order. -/
theorem queues_ascending (r : Registry) : r.queues.Pairwise fun q q' =>
    q.topic < q'.topic ∨ q.topic = q'.topic ∧ q.queue < q'.queue :=
  (Std.ExtTreeMap.ordered_keys (t := r.ledgers)).imp QueueId.compare_eq_lt.1

theorem register_of_known (known : (r.get? q).isSome) : r.register q = r := by
  obtain ⟨l, hl⟩ := Option.isSome_iff_exists.1 known
  rw [register, hl]

theorem get?_insert (r : Registry) (q : QueueId) (l : Ledger) (q' : QueueId) :
    (r.ledgers.insert q l).get? q' = if q = q' then some l else r.get? q' := by
  simp only [get?, Std.ExtTreeMap.get?_eq_getElem?, Std.ExtTreeMap.getElem?_insert,
    Std.LawfulEqCmp.compare_eq_iff_eq]

/-- Opening the ledger of a queue registers it, and no other. -/
theorem get?_register (r : Registry) (q q' : QueueId) :
    (r.register q).get? q' = if q = q' then some (r.ledgerOf q) else r.get? q' := by
  cases known : r.get? q with
  | some l =>
    rw [register_of_known (by rw [known]; rfl), ledgerOf, known]
    split
    next same => rw [← same, known, Option.getD_some]
    next => rfl
  | none =>
    rw [register, ledgerOf, known]
    exact r.get?_insert q (.empty q r.config) q'

/-- So does a call, and it leaves its ledger behind. -/
theorem get?_call (r : Registry) (q : QueueId) (x : Act α) (q' : QueueId) :
    (r.call q x).2.get? q' = if q = q' then some (x (r.seat q)).2.ledger else r.get? q' := by
  have after : (r.call q x).2.get? q' =
      ((r.register q).ledgers.insert q (x (r.seat q)).2.ledger).get? q' := rfl
  rw [after, get?_insert, get?_register]
  split <;> rfl

theorem call_map (r : Registry) (q : QueueId) (f : α → β) (x : Act α) :
    r.call q (f <$> x) = ((r.call q x).1.map f, (r.call q x).2) := by
  rw [call, callOn, Act.map_run]
  rfl

/-! ### What clearing and retiring change -/

/-- From `r` to `r'` no ledger, no row and no view changes, and the same queues are registered. -/
structure Untouched (r r' : Registry) : Prop where
  ledgers : ∀ q, r'.get? q = r.get? q
  store : r'.host.store = r.host.store

/-- From `r` to `r'` a queue loses all its rows and all that its ledger held. Nothing becomes of the
other queues, of other rows and of the views that are pinned. -/
structure Cleared (config : Config) (q : QueueId) (r r' : Registry) : Prop where
  /-- No row of the queue is left in any table. -/
  gone : ∀ a, Owned config q a → r'.rows.get a.space a.key = none
  /-- All other rows are the same. -/
  frame : ∀ a, ¬ Owned config q a → r'.rows.get a.space a.key = r.rows.get a.space a.key
  views : r'.host.store.views = r.host.store.views
  /-- The ledger is that of a queue to which no operation was applied. -/
  ledger : r'.ledgerOf q = .empty q config
  counters : ∀ group, (r'.ledgerOf q).counters group = .zero group
  cursor : (r'.ledgerOf q).cursor = none
  /-- The other queues keep their ledgers, and are registered if they were. -/
  others : ∀ q', q' ≠ q → r'.get? q' = r.get? q'

/-- The counters and the cursor are read off the ledger. -/
theorem Cleared.of_ledger (gone : ∀ a, Owned config q a → r'.rows.get a.space a.key = none)
    (frame : ∀ a, ¬ Owned config q a → r'.rows.get a.space a.key = r.rows.get a.space a.key)
    (views : r'.host.store.views = r.host.store.views) (ledger : r'.ledgerOf q = .empty q config)
    (others : ∀ q', q' ≠ q → r'.get? q' = r.get? q') : Cleared config q r r' where
  gone := gone
  frame := frame
  views := views
  ledger := ledger
  counters group := by rw [ledger, Ledger.counters_empty]
  cursor := by rw [ledger]; rfl
  others := others

/-- Clearing leaves nothing open: there is one way for the rows and the ledgers to be afterwards. -/
theorem Cleared.agree {r₁ r₂ : Registry} (h₁ : Cleared config q r r₁) (h₂ : Cleared config q r r₂)
    (config_eq : r₂.config = r₁.config) :
    r₂.rows = r₁.rows ∧ ∀ q', r₂.ledgerOf q' = r₁.ledgerOf q' := by
  refine ⟨Rows.ext_get fun space key => ?_, fun q' => ?_⟩
  · by_cases owned : Owned config q ⟨space, key⟩
    · exact (h₂.gone _ owned).trans (h₁.gone _ owned).symm
    · exact (h₂.frame _ owned).trans (h₁.frame _ owned).symm
  · by_cases own : q' = q
    · rw [own, h₁.ledger, h₂.ledger]
    · rw [ledgerOf, ledgerOf, h₁.others q' own, h₂.others q' own, config_eq]

theorem Untouched.ledgerOf (h : r.Untouched r') (config_eq : r'.config = r.config) (q : QueueId) :
    r'.ledgerOf q = r.ledgerOf q := by
  rw [Registry.ledgerOf, Registry.ledgerOf, h.ledgers, config_eq]

/-- A call empties a queue and gives `a`, or the store refuses the visit or the batch that the call
makes, and nothing changes. -/
def Empties (r : Registry) (config : Config) (q : QueueId) (a : α)
    (out : Except Failure α × Registry) : Prop :=
  (out.1 = .ok a ∧ Cleared config q r out.2) ∨
    ∃ fault, out.1 = .error (.store fault) ∧ r.Untouched out.2 ∧
      (r.host.outages.refusesNext .iterate = true ∨ r.host.outages.refusesNext .batch = true)

/-- There is no trace of a queue: it is not registered, and has no row. -/
structure Without (config : Config) (q : QueueId) (r : Registry) : Prop where
  config_eq : r.config = config
  closed : r.get? q = none
  bare : ∀ a, Owned config q a → r.rows.get a.space a.key = none

/-- Whatever a queue is asked, one thing after the other, it says the same in both registries, but
for versions of views; and then its ledger is the same, and its rows are. -/
def Indistinct (config : Config) (q : QueueId) (r r' : Registry) : Prop :=
  ∀ inquiries : List Inquiry,
    (ask q inquiries r').1.map (·.map Answer.unversioned) =
        (ask q inquiries r).1.map (·.map Answer.unversioned) ∧
      (ask q inquiries r').2.ledgerOf q = (ask q inquiries r).2.ledgerOf q ∧
      Rows.Agree config q (ask q inquiries r).2.rows (ask q inquiries r').2.rows

theorem Without.ledgerOf (h : r.Without config q) : r.ledgerOf q = .empty q config := by
  rw [Registry.ledgerOf, h.closed, h.config_eq]
  rfl

/-- Registries without a queue cannot be told apart by it, if they refuse the same calls. -/
theorem Without.indistinct (h : Without config q r) (h' : Without config q r')
    (outages : r.host.outages.Concur r'.host.outages) : Indistinct config q r r' := by
  have start : (r.seat q).Twin config q (r'.seat q) := by
    refine ⟨?_, ?_, ?_, fun a owned => ?_, ?_⟩
    · rw [seat_ledger, h.ledgerOf]
      rfl
    · rw [seat_ledger, h.ledgerOf]
      rfl
    · rw [seat_ledger, seat_ledger, h.ledgerOf, h'.ledgerOf]
    · rw [seat_rows, seat_rows, h.bare a owned, h'.bare a owned]
    · rw [seat_outages, seat_outages]
      exact outages
  intro inquiries
  obtain ⟨answers, twin⟩ := twin_ask start inquiries
  exact ⟨answers, by simpa using twin.ledger, by simpa using twin.rows⟩

/-- Retiring a queue that is not registered does nothing. -/
theorem retire_of_unknown (unknown : r.get? q = none) : r.retire q = (.ok false, r) := by
  rw [retire, unknown]

/-- Retiring a registered queue clears it, and drops its ledger if that succeeds. -/
theorem retire_of_known (known : (r.get? q).isSome) :
    (∃ e, (r.call q Act.clear).1 = .error e ∧ r.retire q = (.error e, (r.call q Act.clear).2)) ∨
      ((r.call q Act.clear).1 = .ok () ∧ (r.retire q).1 = .ok true ∧
        (r.retire q).2.config = r.config ∧
        (r.retire q).2.host = (r.call q Act.clear).2.host.tell (.retired q) ∧
        ∀ q', (r.retire q).2.get? q' = if q = q' then none else r.get? q') := by
  obtain ⟨l, hl⟩ := Option.isSome_iff_exists.1 known
  have call : r.callOn q l Act.clear = r.call q Act.clear := by
    rw [Registry.call, register_of_known known, hl]
    rfl
  rw [retire, hl]
  dsimp only
  rw [call]
  rcases cleared : r.call q Act.clear with ⟨e | u, r'⟩
  · exact Or.inl ⟨e, rfl, rfl⟩
  · have config := r.call_config q Act.clear
    have after (q' : QueueId) (other : q ≠ q') : r'.get? q' = r.get? q' := by
      have ledgers := r.get?_call q Act.clear q'
      rwa [cleared, if_neg other] at ledgers
    rw [cleared] at config
    refine Or.inr ⟨rfl, rfl, config, rfl, fun q' => ?_⟩
    have erased : ((r'.ledgers.erase q).get? q' : Option Ledger) =
        if q = q' then none else r'.get? q' := by
      simp only [get?, Std.ExtTreeMap.get?_eq_getElem?, Std.ExtTreeMap.getElem?_erase,
        Std.LawfulEqCmp.compare_eq_iff_eq]
    refine erased.trans ?_
    split
    · rfl
    next other => exact after q' other

/-- An attempt to retire a queue has three ends. -/
theorem retire_cases (r : Registry) (q : QueueId) :
    (r.get? q = none ∧ r.retire q = (.ok false, r)) ∨
      (∃ e, (r.get? q).isSome ∧ r.retire q = (.error e, (r.call q Act.clear).2)) ∨
      ((r.retire q).1 = .ok true ∧ (r.retire q).2.config = r.config ∧
        (r.retire q).2.host = (r.call q Act.clear).2.host.tell (.retired q) ∧
        ∀ q', (r.retire q).2.get? q' = if q = q' then none else r.get? q') := by
  by_cases known : (r.get? q).isSome
  · rcases retire_of_known known with ⟨e, -, failed⟩ | ⟨-, done⟩
    · exact Or.inr (Or.inl ⟨e, known, failed⟩)
    · exact Or.inr (Or.inr done)
  · have unknown : r.get? q = none := by simpa using known
    exact Or.inl ⟨unknown, retire_of_unknown unknown⟩

theorem retire_config (r : Registry) (q : QueueId) : (r.retire q).2.config = r.config := by
  rcases r.retire_cases q with ⟨-, retire⟩ | ⟨e, -, retire⟩ | ⟨-, config, -⟩
  · rw [retire]
  · rw [retire, call_config]
  · exact config

/-- A queue that is retired is not registered any more, and all others are if they were. -/
theorem get?_retire (done : (r.retire q).1 = .ok true) (q' : QueueId) :
    (r.retire q).2.get? q' = if q = q' then none else r.get? q' := by
  rcases r.retire_cases q with ⟨-, retire⟩ | ⟨e, -, retire⟩ | ⟨-, -, -, get⟩
  · rw [retire] at done
    cases done
  · rw [retire] at done
    cases done
  · exact get q'

/-- An attempt that does not succeed registers and unregisters nothing. -/
theorem isSome_get?_retire (not_done : (r.retire q).1 ≠ .ok true) (q' : QueueId) :
    ((r.retire q).2.get? q').isSome = (r.get? q').isSome := by
  rcases r.retire_cases q with ⟨-, retire⟩ | ⟨e, known, retire⟩ | ⟨done, -⟩
  · rw [retire]
  · rw [retire, get?_call]
    split
    next same =>
      rw [← same, known]
      rfl
    next => rfl
  · exact absurd done not_done

end Registry

/-! ### Runs that open and retire queues -/

namespace Service

/-- A queue that was opened or retired. -/
inductive Change
  /-- The queue was asked for, and opened if need be. -/
  | opened (q : QueueId)
  /-- The queue was retired. -/
  | retired (q : QueueId)

/-- By a log whose newest entry comes first, a queue was opened and not retired since. -/
def Change.Serving (log : List Change) (q : QueueId) : Prop :=
  ∃ later earlier, log = later ++ opened q :: earlier ∧ retired q ∉ later

/-- What one more entry changes. -/
theorem Change.serving_cons {log : List Change} {c : Change} {q : QueueId} :
    Serving (c :: log) q ↔ c = opened q ∨ c ≠ retired q ∧ Serving log q := by
  constructor
  · intro h
    obtain ⟨later, earlier, eq, kept⟩ := h
    cases later with
    | nil =>
      cases eq
      exact Or.inl rfl
    | cons c' later =>
      cases eq
      refine Or.inr ⟨fun same => kept ?_, later, earlier, rfl, fun mem => kept ?_⟩
      · exact same ▸ List.mem_cons_self
      · exact List.mem_cons_of_mem c mem
  · intro h
    rcases h with rfl | ⟨other, later, earlier, rfl, kept⟩
    · exact ⟨[], log, rfl, List.not_mem_nil⟩
    · refine ⟨c :: later, earlier, rfl, fun mem => ?_⟩
      rcases List.mem_cons.1 mem with same | mem
      · exact other same.symm
      · exact kept mem

/-- The service after a queue was asked for. -/
def opened (m : Service) (q : QueueId) : Service := { m with registry := m.registry.register q }

/-- The service after an attempt to retire a queue. -/
def retired (m : Service) (q : QueueId) : Service := { m with registry := (m.registry.retire q).2 }

/-- What orderly calls on registered queues lead to, between which queues are opened and retired.
The log says which, with the newest entry first. -/
inductive Managed (m₀ : Service) : List Change → Service → Prop
  /-- Nothing happened. -/
  | start : Managed m₀ [] m₀
  /-- A queue was asked for. -/
  | opened {log : List Change} {m : Service} (q : QueueId) (before : Managed m₀ log m) :
    Managed m₀ (.opened q :: log) (m.opened q)
  /-- One more call was made on a registered queue. -/
  | call {log : List Change} {m : Service} (q : QueueId) (c : Command) (before : Managed m₀ log m)
    (known : (m.registry.get? q).isSome) (may : (m.moment q).Orderly c) :
    Managed m₀ log (m.after q c)
  /-- A queue was retired. -/
  | retired {log : List Change} {m : Service} (q : QueueId) (before : Managed m₀ log m)
    (done : (m.registry.retire q).1 = .ok true) : Managed m₀ (.retired q :: log) (m.retired q)
  /-- A queue was not retired: it was not registered, or could not be cleared. -/
  | spared {log : List Change} {m : Service} (q : QueueId) (before : Managed m₀ log m)
    (not_done : (m.registry.retire q).1 ≠ .ok true) : Managed m₀ log (m.retired q)

variable {config : Config} {first : Rows} {m m' : Service} {live : QueueId → Set CheckPoint}
  {q : QueueId} {log : List Change}

/-- What is kept depends on the ledgers that can be read and on the rows. -/
theorem Kept.congr (k : Kept config first m live) (taken : m'.taken = m.taken)
    (ledgers : ∀ q, m'.registry.ledgerOf q = m.registry.ledgerOf q)
    (rows : m'.registry.rows = m.registry.rows) : Kept config first m' live := by
  have ledger (q : QueueId) : (m'.moment q).site.ledger = (m.moment q).site.ledger := by
    show (m'.registry.seat q).ledger = (m.registry.seat q).ledger
    rw [Registry.seat_ledger, Registry.seat_ledger, ledgers]
  have seated (q : QueueId) : (m'.moment q).site.rows = (m.moment q).site.rows := by
    show (m'.registry.seat q).rows = (m.registry.seat q).rows
    rw [Registry.seat_rows, Registry.seat_rows, rows]
  refine ⟨fun q => ?_, fun a foreign => ?_⟩
  · have kq := k.each q
    refine ⟨?_, ?_, ?_, ?_, ?_⟩
    · rw [ledger, kq.queue_eq]
    · rw [ledger, kq.config_eq]
    · rw [ledger, seated]
      exact kq.inFlight
    · show ∀ s ∈ m'.taken q, s.Fits config q
      rw [taken]
      exact kq.fits
    · rw [seated, rows]
      exact kq.frame
  · rw [rows, k.frame a foreign]

/-- Clearing a registered queue. -/
theorem Kept.clears (distinct : config.distinct) (k : Kept config first m live)
    (known : (m.registry.get? q).isSome) :
    m.registry.Empties config q () (m.registry.call q Act.clear) := by
  have own : (m.registry.seat q).ledger.queue = q := (k.each q).queue_eq
  have config_eq : (m.registry.seat q).ledger.config = config := (k.each q).config_eq
  have store : (m.registry.seat q).host.store = m.registry.host.store :=
    (m.registry.register_spec q).2.1
  have distinct' : (m.registry.seat q).ledger.config.distinct := by rwa [config_eq]
  rcases Act.clear_cases distinct' (k.each q).inFlight with
    ⟨fault, answer, quiet, refused⟩ | ⟨requests, answer, ledger, stored, re⟩
  · rw [Registry.seat_outages] at refused
    refine Or.inr ⟨fault, answer, ⟨fun q' => ?_, quiet.host.store.trans store⟩, refused⟩
    rw [Registry.get?_call, quiet.ledger, Registry.seat_ledger, Registry.ledgerOf]
    split
    next same =>
      obtain ⟨l, hl⟩ := Option.isSome_iff_exists.1 known
      rw [← same, hl, Option.getD_some]
    next => rfl
  · rw [own, config_eq] at re ledger
    refine Or.inl ⟨answer, .of_ledger (fun a owned => re.mirrors.get_of_empty owned)
      (fun a foreign => ?_) ?_ ?_ fun q' other => ?_⟩
    · rw [Registry.call_rows, re.frame a foreign, Registry.seat_rows]
    · rw [Registry.call_host, stored, Store.apply, store]
    · rw [Registry.ledgerOf_call, if_pos rfl, ledger]
    · rw [Registry.get?_call, if_neg (Ne.symm other)]

/-- Retiring a registered queue. -/
theorem Kept.retires (distinct : config.distinct) (k : Kept config first m live)
    (config_eq : m.registry.config = config) (known : (m.registry.get? q).isSome) :
    (m.registry.retire q).1 = (m.registry.call q Act.clear).1.map (fun _ => true) ∧
      m.registry.Empties config q true (m.registry.retire q) ∧
      ((m.registry.retire q).1 = .ok true → Registry.Without config q (m.registry.retire q).2) := by
  rcases Registry.retire_of_known known with ⟨e, failed, retire⟩ | ⟨cleared, done, conf, host, get⟩
  · rcases k.clears distinct known with ⟨answer, -⟩ | ⟨fault, answer, why⟩
    · rw [failed] at answer
      cases answer
    · rw [failed] at answer
      cases answer
      rw [retire, failed]
      exact ⟨rfl, Or.inr ⟨fault, rfl, why⟩, nofun⟩
  · rcases k.clears distinct known with ⟨-, clear⟩ | ⟨fault, answer, -⟩
    · have rows : (m.registry.retire q).2.rows = (m.registry.call q Act.clear).2.rows := by
        rw [Registry.rows, host]
        rfl
      have closed : (m.registry.retire q).2.get? q = none := by rw [get, if_pos rfl]
      have without : Registry.Without config q (m.registry.retire q).2 := by
        refine ⟨conf.trans config_eq, closed, fun a owned => ?_⟩
        rw [rows, clear.gone a owned]
      refine ⟨by rw [done, cleared]; rfl, Or.inl ⟨done, ?_⟩, fun _ => without⟩
      refine .of_ledger without.bare (fun a foreign => ?_) ?_ without.ledgerOf fun q' other => ?_
      · rw [rows, clear.frame a foreign]
      · rw [host]
        exact clear.views
      · rw [get, if_neg (Ne.symm other)]
    · rw [cleared] at answer
      cases answer

/-- Clearing gives no snapshot. -/
theorem taken_after_clear (m : Service) (q : QueueId) : (m.after q .clear).taken = m.taken := by
  have given : ((m.moment q).after .clear).taken = m.taken q := by
    have run : Command.clear.act (m.moment q).site =
        ((Act.clear (m.moment q).site).1.map fun _ => none,
        (Act.clear (m.moment q).site).2) := Act.map_run _ _ _
    rw [Moment.after, run]
    cases (Act.clear (m.moment q).site).1 <;> rfl
  rw [Service.after, given, Function.update_eq_self]

/-- An attempt to retire a queue leaves behind what clearing it does. -/
theorem Kept.retired (distinct : config.distinct) (k : Kept config first m live)
    (config_eq : m.registry.config = config) (q : QueueId) :
    (m.retired q).registry.config = config ∧ ∃ live', Kept config first (m.retired q) live' := by
  have conf := m.registry.retire_config q
  refine ⟨conf.trans config_eq, ?_⟩
  by_cases known : (m.registry.get? q).isSome
  · obtain ⟨answer, ⟨done, clear⟩ | ⟨fault, -, untouched, -⟩, -⟩ :=
      k.retires distinct config_eq known
    · rcases k.clears distinct known with ⟨-, clear'⟩ | ⟨fault, failed, -⟩
      · -- Dropping the cleared ledger makes no difference to what can be read.
        obtain ⟨live', k'⟩ := k.after distinct (c := .clear) (q := q) trivial
        have after : (m.after q .clear).registry = (m.registry.call q Act.clear).2 :=
          congrArg Prod.snd (m.registry.call_map q (fun _ => none) Act.clear)
        obtain ⟨rows, ledgers⟩ := clear'.agree clear (by rw [conf, Registry.call_config])
        refine ⟨live', k'.congr (m.taken_after_clear q).symm (fun q' => ?_) ?_⟩
        · rw [after]
          exact ledgers q'
        · rw [after]
          exact rows
      · rw [failed, done] at answer
        cases answer
    · exact ⟨live, k.congr rfl (untouched.ledgerOf conf) (congrArg Store.rows untouched.store)⟩
  · have same : m.retired q = m := by
      rw [Service.retired, Registry.retire_of_unknown (by simpa using known)]
    rw [same]
    exact ⟨live, k⟩

/-- **One run.** The tables of every queue stay coherent, and the options are those of the start. -/
theorem Managed.kept {host : Host} (distinct : config.distinct)
    (bare : ∀ q a, Owned config q a → host.store.rows.get a.space a.key = none)
    (run : Managed (.start config host) log m) :
    m.registry.config = config ∧ ∃ live, Kept config host.store.rows m live := by
  induction run with
  | start => exact ⟨rfl, _, kept_start bare⟩
  | @opened log m q before ih =>
    obtain ⟨config_eq, live, k⟩ := ih
    obtain ⟨conf, store, -, ledgers⟩ := m.registry.register_spec q
    exact ⟨conf.trans config_eq, live, k.congr rfl ledgers (congrArg Store.rows store)⟩
  | @call log m q c before known may ih =>
    obtain ⟨config_eq, live, k⟩ := ih
    exact ⟨(m.registry.call_config q c.act).trans config_eq, k.after distinct may⟩
  | @retired log m q before done ih =>
    obtain ⟨config_eq, live, k⟩ := ih
    exact k.retired distinct config_eq q
  | @spared log m q before not_done ih =>
    obtain ⟨config_eq, live, k⟩ := ih
    exact k.retired distinct config_eq q

/-- A host that answers goes on to do so. -/
theorem Managed.answers {host : Host} (answers : host.Answers)
    (run : Managed (.start config host) log m) : m.registry.host.Answers := by
  have retire (m : Service) (q : QueueId) (h : m.registry.host.Answers) :
      (m.registry.retire q).2.host.Answers := by
    have clear : (m.registry.call q Act.clear).2.host.Answers :=
      Act.clear_does.answers ((m.registry.seat_answers q).2 h)
    rcases m.registry.retire_cases q with ⟨-, retire⟩ | ⟨e, -, retire⟩ | ⟨-, -, host, -⟩
    · rwa [retire]
    · rwa [retire]
    · rwa [host]
  induction run with
  | start => exact answers
  | @opened log m q before ih => exact (m.registry.seat_answers q).2 ih
  | @call log m q c before known may ih =>
    have seated := (m.registry.seat_answers q).2 ih
    rcases c.act_cases (m.registry.seat q) with ⟨e, -, quiet, -⟩ | ⟨d, -, -, moves⟩
    · exact quiet.host.answers.2 seated
    · exact moves.answers.2 seated
  | @retired log m q before done ih => exact retire m q ih
  | @spared log m q before not_done ih => exact retire m q ih

/-- The registered queues are those that the log says are served. -/
theorem Managed.known_iff {host : Host} (run : Managed (.start config host) log m) (q : QueueId) :
    (m.registry.get? q).isSome ↔ Change.Serving log q := by
  induction run with
  | start =>
    refine iff_of_false (by simp [Service.start, Registry.start, Registry.get?]) fun h => ?_
    obtain ⟨later, earlier, eq, -⟩ := h
    simp at eq
  | @opened log m q' before ih =>
    show ((m.registry.register q').get? q).isSome ↔ _
    rw [Registry.get?_register, Change.serving_cons, ← ih]
    split
    next same => exact iff_of_true rfl (Or.inl (congrArg _ same))
    next other => simp [other]
  | @call log m q' c before known may ih =>
    show ((m.registry.call q' c.act).2.get? q).isSome ↔ _
    rw [Registry.get?_call, ← ih]
    split
    next same =>
      rw [← same]
      exact iff_of_true rfl known
    next => rfl
  | @retired log m q' before done ih =>
    show ((m.registry.retire q').2.get? q).isSome ↔ _
    rw [Registry.get?_retire done, Change.serving_cons, ← ih]
    split
    next same => simp [same]
    next other => simp [other]
  | @spared log m q' before not_done ih =>
    show ((m.registry.retire q').2.get? q).isSome ↔ _
    rw [Registry.isSome_get?_retire not_done, ← ih]

/-! ### The main statement -/

/-- **Clearing and retiring leave no trace and touch nothing else.** Start with three different
tables without any row of a queue, and with any schedule of refusals. Open and retire any queues,
and make orderly calls on those that are registered.

* Clearing a registered queue removes every row of it, sets its counters to zero and forgets its
  cursor, and changes no other row, no other ledger and no view. It fails only if the store refuses
  the visit or the batch, and then nothing changes.
* Retiring a queue that is not registered says so and does nothing.
* Retiring one that is registered succeeds if clearing it does, and then has the same effect, and
  the queue is not registered any more. If it is opened again, it cannot be told from a queue of any
  other registry with the same options that does not know it, whose store holds no row of it and
  refuses the same calls from then on. If clearing fails, nothing changes.
* The registered queues are those that were opened and not retired since, in ascending order. -/
theorem Managed.leaves_no_trace {config : Config} {host : Host} {log : List Change} {m : Service}
    (distinct : config.distinct)
    (bare : ∀ q a, Owned config q a → host.store.rows.get a.space a.key = none)
    (run : Managed (.start config host) log m) :
    (∀ q, (m.registry.get? q).isSome →
      m.registry.Empties config q () (m.registry.call q Act.clear)) ∧
    (∀ q, m.registry.get? q = none → m.registry.retire q = (.ok false, m.registry)) ∧
    (∀ q, (m.registry.get? q).isSome →
      (m.registry.retire q).1 = (m.registry.call q Act.clear).1.map (fun _ => true) ∧
        m.registry.Empties config q true (m.registry.retire q) ∧
        ((m.registry.retire q).1 = .ok true →
          (m.registry.retire q).2.get? q = none ∧
            ∀ other, Registry.Without config q other →
              (m.registry.retire q).2.host.outages.Concur other.host.outages →
                Registry.Indistinct config q (m.registry.retire q).2 other)) ∧
    (m.registry.queues.Pairwise fun q q' =>
      q.topic < q'.topic ∨ q.topic = q'.topic ∧ q.queue < q'.queue) ∧
    ∀ q, q ∈ m.registry.queues ↔
      ∃ later earlier, log = later ++ .opened q :: earlier ∧ .retired q ∉ later := by
  obtain ⟨config_eq, live, k⟩ := run.kept distinct bare
  refine ⟨fun q known => k.clears distinct known, fun q => Registry.retire_of_unknown,
    fun q known => ?_, m.registry.queues_ascending, fun q => ?_⟩
  · obtain ⟨answer, empties, gone⟩ := k.retires distinct config_eq known
    refine ⟨answer, empties, fun done => ⟨(gone done).closed, fun other without outages => ?_⟩⟩
    exact (gone done).indistinct without outages
  · exact Registry.mem_queues.trans (run.known_iff q)

/-- Two queues with an ordered delivery each, the first of which is retired: five of ten rows are
left, and the first queue cannot be told from one on a new host. -/
theorem Managed.leaves_no_trace_reopened :
    let pop (q : QueueId) : Command := .replay 1 (.pop ⟨q, 5, 9, 3, .order, 1000, 500, false, 0⟩)
    let asked := ((Service.start .standard .fresh).opened ⟨1, 1⟩).opened ⟨1, 0⟩
    let m := (asked.after ⟨1, 0⟩ (pop ⟨1, 0⟩)).after ⟨1, 1⟩ (pop ⟨1, 1⟩)
    m.registry.rows.size = 10 ∧ m.registry.queues = [⟨1, 0⟩, ⟨1, 1⟩] ∧
      (m.registry.retire ⟨1, 0⟩).1 = .ok true ∧ (m.registry.retire ⟨1, 0⟩).2.rows.size = 5 ∧
      Registry.Indistinct .standard ⟨1, 0⟩ (m.registry.retire ⟨1, 0⟩).2
        (.start .standard .fresh) := by
  intro pop asked m
  have first : (asked.moment ⟨1, 0⟩).site.ledger.Above 1 := by decide +kernel
  have second : ((asked.after ⟨1, 0⟩ (pop ⟨1, 0⟩)).moment ⟨1, 1⟩).site.ledger.Above 1 := by
    decide +kernel
  have known : (asked.registry.get? ⟨1, 0⟩).isSome := by decide +kernel
  have known' : ((asked.after ⟨1, 0⟩ (pop ⟨1, 0⟩)).registry.get? ⟨1, 1⟩).isSome := by decide +kernel
  have run : Managed (.start .standard .fresh) [.opened ⟨1, 0⟩, .opened ⟨1, 1⟩] asked :=
    (Managed.start.opened ⟨1, 1⟩).opened ⟨1, 0⟩
  have run : Managed (.start .standard .fresh) [.opened ⟨1, 0⟩, .opened ⟨1, 1⟩] m :=
    (run.call ⟨1, 0⟩ (pop ⟨1, 0⟩) known first).call ⟨1, 1⟩ (pop ⟨1, 1⟩) known' second
  have size : m.registry.rows.size = 10 := by decide +kernel
  have queues : m.registry.queues = [⟨1, 0⟩, ⟨1, 1⟩] := by decide +kernel
  have done : (m.registry.retire ⟨1, 0⟩).1 = .ok true := by decide +kernel
  have left : (m.registry.retire ⟨1, 0⟩).2.rows.size = 5 := by decide +kernel
  have there : (m.registry.get? ⟨1, 0⟩).isSome := by decide +kernel
  clear_value m
  have answers : Host.fresh.Answers := fun _ _ => rfl
  have later := (run.retired ⟨1, 0⟩ done).answers answers
  have fresh : Registry.Without .standard ⟨1, 0⟩ (.start .standard .fresh) :=
    ⟨rfl, by simp [Registry.start, Registry.get?], fun a _ => Host.get_fresh a.space a.key⟩
  obtain ⟨-, -, retires, -⟩ := Managed.leaves_no_trace (by decide)
    (fun _ a _ => Host.get_fresh a.space a.key) run
  obtain ⟨-, -, gone⟩ := retires ⟨1, 0⟩ there
  exact ⟨size, queues, done, left, (gone done).2 _ fresh (.of_answers later answers)⟩

end Service

end QueueLedger
