import QueueLedger.Proofs.Alike
import QueueLedger.Proofs.CheckPointTable
import QueueLedger.Registry
/-!
# Queues do not see each other

The ledgers of all queues work on one store, and only the keys tell whose a row is. Yet a queue is
served as if the others were not there: leave all errands for other queues out, and it gets the
same replies and ends with the same ledger and the same rows (`Registry.isolated`).

## Proof shape

Two facts about one errand make up the induction over a sequence of errands. Its reply and what it
does to its queue depend on the ledger and the rows of this queue only (`Errand.act_alike`); and
what it writes are rows of this queue (`Errand.confined`), which no other queue owns
(`not_owned_of_owned`). The second fact needs that a check point stands in a row of its own queue,
since its rows are removed when it is acknowledged (`Rows.Homed`).
-/

namespace QueueLedger

/-! ### Whose a row is -/

/-- No address belongs to two queues. -/
theorem not_owned_of_owned {tables : Config} {q q' : QueueId} {a : Address}
    (distinct : tables.distinct) (other : q ≠ q') (h : Owned tables q a) : ¬ Owned tables q' a := by
  obtain ⟨ct, cl, tl⟩ := distinct
  rintro h'
  rcases h with ⟨space, stem⟩ | ⟨space, due, n, key⟩ | ⟨space, g, o, key⟩
  · rcases h' with ⟨-, stem'⟩ | ⟨space', -⟩ | ⟨space', -⟩
    · exact other (CheckPoint.eq_of_scope_isPrefixOf stem stem')
    · exact ct (space.symm.trans space')
    · exact cl (space.symm.trans space')
  · rcases h' with ⟨space', -⟩ | ⟨-, due', n', key'⟩ | ⟨space', -⟩
    · exact ct (space'.symm.trans space)
    · rw [key, TimerKey.encode_inj, TimerKey.mk.injEq] at key'
      exact other key'.2.1
    · exact tl (space.symm.trans space')
  · rcases h' with ⟨space', -⟩ | ⟨space', -⟩ | ⟨-, g', o', key'⟩
    · exact cl (space'.symm.trans space)
    · exact tl (space'.symm.trans space)
    · rw [key, OrderLock.key_inj] at key'
      exact other key'.2.1

/-- A check point that can be read stands in a row of its own queue. -/
def Rows.Homed (tables : Config) (r : Rows) : Prop :=
  ∀ q key value c, (CheckPoint.scope q).isPrefixOf key = true →
    r.get tables.checkPoints key = some value → CheckPoint.decode value = .ok c → c.queue = q

/-- A request on a row of some delivery of a queue: it writes the row of the delivery, or removes
it. -/
def Request.Serves (tables : Config) (q : QueueId) (request : Request) : Prop :=
  ∃ c : CheckPoint, c.queue = q ∧ ∃ v, (request.address, v) ∈ c.rows tables ∧
    ∀ v' ∈ request.value?, v' = v

namespace Request

variable {tables : Config} {q : QueueId} {c : CheckPoint} {request : Request}

theorem Serves.owned (h : request.Serves tables q) : Owned tables q request.address := by
  obtain ⟨c, rfl, v, row, -⟩ := h
  exact owned_of_mem_rows row

theorem serves_of_mem_replacement {gone wanted : List CheckPoint} (leave : ∀ c ∈ gone, c.queue = q)
    (own : ∀ c ∈ wanted, c.queue = q) (h : request ∈ Act.replacement tables gone wanted) :
    request.Serves tables q := by
  rcases List.mem_append.1 h with removed | written
  · obtain ⟨c, hc, ⟨a, v⟩, row, rfl⟩ := Act.mem_flatMap_deletes.1 removed
    exact ⟨c, leave c hc, v, row, by simp [Request.value?]⟩
  · obtain ⟨c, hc, ⟨a, v⟩, row, rfl⟩ := Act.mem_flatMap_puts.1 written
    exact ⟨c, own c hc, v, row, by simp [Request.value?]⟩

/-- A renewal writes rows of the renewed delivery and removes one of the old delivery. -/
theorem serves_of_mem_moves {t : UInt64} (own : c.queue = q) (h : request ∈ c.moves tables t) :
    request.Serves tables q := by
  have timer (c : CheckPoint) :
      (⟨tables.timers, c.timerKey.encode⟩, c.receipt.encode) ∈ c.rows tables :=
    CheckPoint.mem_rows.2 (Or.inr (Or.inl ⟨rfl, rfl⟩))
  simp only [CheckPoint.moves, List.mem_cons, List.not_mem_nil, or_false] at h
  rcases h with rfl | rfl | rfl
  · exact ⟨c, own, _, timer c, by simp [Request.value?]⟩
  · exact ⟨c.renewed t, own, _, Filed.record_mem_rows (c.renewed t) tables,
      by simp [Request.value?]⟩
  · exact ⟨c.renewed t, own, _, timer (c.renewed t), by simp [Request.value?]⟩

end Request

namespace Rows.Homed

variable {tables : Config} {q : QueueId} {l : Ledger} {r : Rows} {requests : List Request}

/-- Rows of deliveries keep check points at home. -/
theorem apply (distinct : tables.distinct) (homed : r.Homed tables)
    (serves : ∀ request ∈ requests, request.Serves tables q) : (r.apply requests).Homed tables := by
  induction requests generalizing r with
  | nil => exact homed
  | cons request requests ih =>
    rw [Rows.apply_cons]
    refine ih ?_ fun request' h => serves request' (List.mem_cons_of_mem request h)
    intro q' key value c stem row read
    rw [Rows.get_request] at row
    split at row
    next here =>
      obtain ⟨c', -, v, mem, agrees⟩ := serves request List.mem_cons_self
      rw [here] at mem
      obtain ⟨rfl, rfl⟩ := Filed.eq_of_mem_rows distinct mem
      rw [agrees value row, CheckPoint.decode_encode] at read
      cases read
      -- A row that was just written has the key of the queue of its check point.
      exact CheckPoint.eq_of_scope_isPrefixOf
        (CheckPoint.scope_isPrefixOf_keyOf c.queue c.operation) stem
    next => exact homed q' key value c stem row read

theorem queue_of_found (homed : r.Homed l.config) {id : UInt64} {c : CheckPoint}
    (found : l.found r id = .ok c) : c.queue = l.queue := by
  unfold Ledger.found at found
  cases row : r.get l.config.checkPoints (CheckPoint.keyOf l.queue id) with
  | none => rw [row] at found; cases found
  | some value =>
    rw [row] at found
    exact homed l.queue _ value c (CheckPoint.scope_isPrefixOf_keyOf l.queue id) row found

theorem queue_of_scanned (homed : r.Homed l.config) {cs : List CheckPoint}
    (scan : l.scanned r = .ok cs) : ∀ c ∈ cs, c.queue = l.queue := by
  refine forall_mem_of_mapM_eq_ok scan ?_
  rintro ⟨key, value⟩ hrow c read
  obtain ⟨row, stem⟩ := Rows.mem_select.1 hrow
  rw [Range.holds_under] at stem
  exact homed l.queue key value c stem row read

end Rows.Homed

/-- The batch of a call is about rows of the queue. -/
theorem Command.serves_of_decision {c : Command} {l : Ledger} {r : Rows} {d : Decision}
    (homed : r.Homed l.config) (decided : c.decision l r = .ok d) :
    ∀ request ∈ d.requests, request.Serves l.config l.queue := by
  intro request h
  match c with
  | .replay id (.pop p) =>
    obtain ⟨turn, -, ⟨-, -, rfl⟩ | ⟨-, -, rfl⟩⟩ := Ledger.popDecision_eq_ok decided
    · rw [Ledger.settle_requests] at h
      cases h
    · rw [Act.puts_eq_replacement] at h
      refine Request.serves_of_mem_replacement (by simp) (fun c hc => ?_) h
      obtain rfl := List.mem_singleton.1 hc
      exact (Ledger.checkTurn_eq_ok turn).1
  | .replay id (.ack a) =>
    obtain ⟨c, found, requests⟩ := Ledger.requests_of_ackDecision decided
    rw [requests, Act.deletes_eq_replacement] at h
    refine Request.serves_of_mem_replacement (fun c' hc' => ?_) (by simp) h
    obtain rfl := List.mem_singleton.1 hc'
    exact homed.queue_of_found found
  | .replay id (.renewal w) =>
    obtain ⟨-, c, found, rfl⟩ := Ledger.renewDecision_eq_ok decided
    exact Request.serves_of_mem_moves (homed.queue_of_found found) h
  | .takeSnapshot =>
    obtain ⟨existing, -, decided⟩ := bind_eq_ok.1 (show l.scanned r >>= _ = _ from decided)
    cases decided
    cases h
  | .load s =>
    obtain ⟨groups, existing, -, own, scan, rfl⟩ := Ledger.loadDecision_eq_ok decided
    refine Request.serves_of_mem_replacement (fun c hc => ?_) (Ledger.checkOwn_iff.1 own) h
    exact homed.queue_of_scanned scan c (List.mem_filter.1 hc).1
  | .clear =>
    obtain ⟨existing, scan, rfl⟩ := Ledger.clearDecision_eq_ok decided
    exact Request.serves_of_mem_replacement (homed.queue_of_scanned scan) (by simp) h
  | .release s =>
    cases decided
    cases h

/-! ### Errands -/

/-- What can be asked of a queue. -/
inductive Errand
  /-- A call that can change something. -/
  | command (c : Command)
  /-- The deliveries in flight. -/
  | checkPoints
  /-- Whether an offset is locked for a group. -/
  | isLocked (group offset : UInt64)

/-- What an errand brings back. -/
inductive Reply
  /-- The call was made, and may have given a snapshot. -/
  | done (snapshot : Option Snapshot)
  /-- The deliveries in flight. -/
  | checkPoints (checkPoints : List CheckPoint)
  /-- Whether the offset is locked. -/
  | locked (held : Bool)

/-- The reply, but for the version of a view. -/
def Reply.unversioned : Reply → Reply
  | done snapshot => done (snapshot.map Snapshot.unversioned)
  | reply => reply

namespace Errand

/-- Runs the errand. -/
def act : Errand → Act Reply
  | command c => Reply.done <$> c.act
  | checkPoints => Reply.checkPoints <$> Act.checkPoints
  | isLocked group offset => Reply.locked <$> Act.isLocked group offset

end Errand

theorem Act.lockRow_reads (group offset : UInt64) : Reads (lockRow group offset) fun l r =>
    .ok (r.get l.config.locks (OrderLock.key group l.queue offset)) :=
  (reads_ledger.bind fun l => reads_get l.config.locks (OrderLock.key group l.queue offset)).congr
    fun _ _ => rfl

theorem Act.isLocked_reads (group offset : UInt64) : Reads (isLocked group offset) fun l r =>
    .ok (r.get l.config.locks (OrderLock.key group l.queue offset)).isSome :=
  ((lockRow_reads group offset).bind fun row => reads_pure row.isSome).congr fun _ _ => rfl

/-- From `s` to `s'` nothing is written but rows of the queue, and check points stay at home. -/
structure Site.Confined (s s' : Site) : Prop where
  queue : s'.ledger.queue = s.ledger.queue
  config : s'.ledger.config = s.ledger.config
  refuses : s'.host.outages.refuses = s.host.outages.refuses
  homed : s'.rows.Homed s.ledger.config
  frame : ∀ a, ¬ Owned s.ledger.config s.ledger.queue a →
    s'.rows.get a.space a.key = s.rows.get a.space a.key

theorem Site.Quiet.confined {s s' : Site} (quiet : s.Quiet s')
    (homed : s.rows.Homed s.ledger.config) : s.Confined s' where
  queue := by rw [quiet.ledger]
  config := by rw [quiet.ledger]
  refuses := quiet.host.refuses
  homed := by rw [quiet.rows]; exact homed
  frame a _ := by rw [quiet.rows]

theorem Command.confined (c : Command) {s : Site} (distinct : s.ledger.config.distinct)
    (homed : s.rows.Homed s.ledger.config) : s.Confined (c.act s).2 := by
  rcases c.act_cases s with ⟨e, -, quiet, -⟩ | ⟨d, decided, -, moves⟩
  · exact quiet.confined homed
  · obtain ⟨own, config⟩ := stays_of_decision decided
    have serves := serves_of_decision homed decided
    refine ⟨?_, ?_, moves.refuses, ?_, fun a foreign => ?_⟩
    · rw [moves.ledger, own]
    · rw [moves.ledger, config]
    · rw [moves.rows]
      exact homed.apply distinct serves
    · rw [moves.rows]
      refine Rows.get_apply_of_ne fun request h here => foreign ?_
      rw [← here]
      exact (serves request h).owned

namespace Errand

/-- Twins give the same reply, but for the version of a view, and stay twins. -/
theorem lockstep {tables : Config} {q : QueueId} (e : Errand) :
    Act.Lockstep tables q (fun r r' => r'.unversioned = r.unversioned) e.act e.act := by
  cases e with
  | command c => exact c.lockstep.map fun _ _ same => congrArg Reply.done same
  | checkPoints => exact Act.lockstep_scan.map fun _ _ same => by rw [same]
  | isLocked group offset =>
    exact (Act.lockstep_isLocked group offset).map fun _ _ same => by rw [same]

/-- **An errand sees its own queue only.** -/
theorem act_alike {s s' : Site} (alike : s.Alike s') (answers : s.host.Answers)
    (answers' : s'.host.Answers) (e : Errand) :
    (e.act s').1.map Reply.unversioned = (e.act s).1.map Reply.unversioned ∧
      (e.act s).2.Alike (e.act s').2 := by
  obtain ⟨matched, twin⟩ := e.lockstep s s' (alike.twin answers answers')
  exact ⟨matched.map_eq, twin.alike⟩

/-- **An errand writes to its own queue only.** -/
theorem confined (e : Errand) {s : Site} (distinct : s.ledger.config.distinct)
    (homed : s.rows.Homed s.ledger.config) : s.Confined (e.act s).2 := by
  cases e with
  | command c =>
    rw [act, Act.map_run]
    exact c.confined distinct homed
  | checkPoints =>
    rw [act, Act.map_run]
    exact (Act.scan_reads s).1.confined homed
  | isLocked group offset =>
    rw [act, Act.map_run]
    exact (Act.isLocked_reads group offset s).1.confined homed

end Errand

/-! ### Many queues -/

namespace Registry

/-- The ledger of a queue, empty before it is first called. -/
def ledgerOf (r : Registry) (q : QueueId) : Ledger := (r.get? q).getD (.empty q r.config)

/-- The rows of the store. -/
def rows (r : Registry) : Rows := r.host.store.rows

/-- Where a call on a queue starts. -/
def seat (r : Registry) (q : QueueId) : Site := ⟨(r.register q).ledgerOf q, (r.register q).host⟩

/-- Runs errands for queues, one after the other, whether they succeed or fail. -/
def serve : List (QueueId × Errand) → Registry → List (QueueId × Except Failure Reply) × Registry
  | [], r => ([], r)
  | (q, e) :: later, r =>
    let (reply, r') := r.call q e.act
    let (replies, r'') := serve later r'
    ((q, reply) :: replies, r'')

variable {α : Type} {r r' : Registry} {q q' : QueueId} {config : Config}

/-- Opening a ledger changes no ledger, no row and no schedule of refusals. -/
theorem register_spec (r : Registry) (q : QueueId) :
    (r.register q).config = r.config ∧ (r.register q).host.store = r.host.store ∧
      (r.register q).host.outages = r.host.outages ∧
      ∀ q', (r.register q).ledgerOf q' = r.ledgerOf q' := by
  unfold register
  cases known : r.get? q with
  | some l => exact ⟨rfl, rfl, rfl, fun _ => rfl⟩
  | none =>
    refine ⟨rfl, rfl, rfl, fun q' => ?_⟩
    simp only [ledgerOf, get?, Std.ExtTreeMap.get?_eq_getElem?, Std.ExtTreeMap.getElem?_insert,
      Std.LawfulEqCmp.compare_eq_iff_eq] at known ⊢
    split
    next same =>
      subst same
      rw [known]
      rfl
    next => rfl

@[simp] theorem seat_ledger (r : Registry) (q : QueueId) : (r.seat q).ledger = r.ledgerOf q :=
  (r.register_spec q).2.2.2 q

@[simp] theorem seat_rows (r : Registry) (q : QueueId) : (r.seat q).rows = r.rows :=
  congrArg Store.rows (r.register_spec q).2.1

@[simp] theorem seat_outages (r : Registry) (q : QueueId) :
    (r.seat q).host.outages = r.host.outages :=
  (r.register_spec q).2.2.1

theorem seat_answers (r : Registry) (q : QueueId) : (r.seat q).host.Answers ↔ r.host.Answers := by
  rw [Host.Answers, Host.Answers, seat_outages]

@[simp] theorem call_host (r : Registry) (q : QueueId) (x : Act α) :
    (r.call q x).2.host = (x (r.seat q)).2.host := rfl

@[simp] theorem call_rows (r : Registry) (q : QueueId) (x : Act α) :
    (r.call q x).2.rows = (x (r.seat q)).2.rows := rfl

@[simp] theorem call_config (r : Registry) (q : QueueId) (x : Act α) :
    (r.call q x).2.config = r.config := (r.register_spec q).1

/-- A call replaces the ledger of its queue. -/
theorem ledgerOf_call (r : Registry) (q : QueueId) (x : Act α) (q' : QueueId) :
    (r.call q x).2.ledgerOf q' =
      if q = q' then (x (r.seat q)).2.ledger else r.ledgerOf q' := by
  have after : (r.call q x).2.get? q' =
      ((r.register q).ledgers.insert q (x (r.seat q)).2.ledger).get? q' := rfl
  rw [ledgerOf, after, call_config]
  simp only [Std.ExtTreeMap.get?_eq_getElem?, Std.ExtTreeMap.getElem?_insert,
    Std.LawfulEqCmp.compare_eq_iff_eq]
  split
  next => rfl
  next =>
    have same := (r.register_spec q).2.2.2 q'
    rwa [ledgerOf, (r.register_spec q).1] at same

/-- Every ledger is that of its queue, the store answers, and check points are at home. -/
structure Kept (config : Config) (r : Registry) : Prop where
  queue_eq : ∀ q, (r.ledgerOf q).queue = q
  config_eq : ∀ q, (r.ledgerOf q).config = config
  answers : r.host.Answers
  homed : r.rows.Homed config

theorem kept_start {host : Host} (answers : host.Answers) (homed : host.store.rows.Homed config) :
    (start config host).Kept config where
  queue_eq q := by simp [ledgerOf, start, get?, Ledger.empty]
  config_eq q := by simp [ledgerOf, start, get?, Ledger.empty]
  answers := answers
  homed := homed

theorem Kept.confined (distinct : config.distinct) (k : r.Kept config) (q : QueueId) (e : Errand) :
    (r.seat q).Confined (e.act (r.seat q)).2 := by
  refine e.confined ?_ ?_
  · simpa [k.config_eq] using distinct
  · simpa [k.config_eq] using k.homed

theorem Kept.call (distinct : config.distinct) (k : r.Kept config) (q : QueueId) (e : Errand) :
    (r.call q e.act).2.Kept config := by
  have confined := k.confined distinct q e
  refine ⟨fun q' => ?_, fun q' => ?_, ?_, ?_⟩
  · rw [ledgerOf_call]
    split
    next same =>
      subst same
      simp [confined.queue, k.queue_eq]
    next => exact k.queue_eq q'
  · rw [ledgerOf_call]
    split
    next => simp [confined.config, k.config_eq]
    next => exact k.config_eq q'
  · rw [call_host, Host.Answers, confined.refuses]
    exact (r.seat_answers q).2 k.answers
  · simpa [k.config_eq] using confined.homed

theorem Kept.served (distinct : config.distinct) (k : r.Kept config)
    (errands : List (QueueId × Errand)) : (serve errands r).2.Kept config := by
  induction errands generalizing r with
  | nil => exact k
  | cons errand errands ih => exact ih (k.call distinct errand.1 errand.2)

/-- Serving another queue makes no difference. -/
theorem Kept.alike_of_ne (distinct : config.distinct) (k : r.Kept config) (other : q' ≠ q)
    (e : Errand) : (r.seat q).Alike ((r.call q' e.act).2.seat q) := by
  have confined := k.confined distinct q' e
  refine ⟨by simp [ledgerOf_call, other], fun a owned => ?_⟩
  simp only [seat_ledger, k.config_eq, k.queue_eq] at owned
  have foreign := not_owned_of_owned distinct (Ne.symm other) owned
  have frame := confined.frame a (by simpa [k.config_eq, k.queue_eq] using foreign)
  simpa using frame.symm

/-- Serving the queue itself gives the same where it looks the same. -/
theorem Kept.alike_of_eq (k : r.Kept config) (k' : r'.Kept config)
    (alike : (r.seat q).Alike (r'.seat q)) (e : Errand) :
    (r'.call q e.act).1.map Reply.unversioned = (r.call q e.act).1.map Reply.unversioned ∧
      ((r.call q e.act).2.seat q).Alike ((r'.call q e.act).2.seat q) := by
  obtain ⟨answer, alike'⟩ := e.act_alike alike ((r.seat_answers q).2 k.answers)
    ((r'.seat_answers q).2 k'.answers)
  refine ⟨answer, ?_, ?_⟩
  · simpa [ledgerOf_call] using alike'.ledger
  · simpa [ledgerOf_call] using alike'.rows

/-- The replies for a queue, but for the versions of views. -/
def repliesOf (q : QueueId) (replies : List (QueueId × Except Failure Reply)) :
    List (Except Failure Reply) :=
  (replies.filter fun reply => reply.1 = q).map fun reply => reply.2.map Reply.unversioned

theorem Kept.serve_alike (distinct : config.distinct) (k : r.Kept config) (k' : r'.Kept config)
    (alike : (r.seat q).Alike (r'.seat q)) (errands : List (QueueId × Errand)) :
    repliesOf q (serve (errands.filter fun errand => errand.1 = q) r').1 =
        repliesOf q (serve errands r).1 ∧
      ((serve errands r).2.seat q).Alike
        ((serve (errands.filter fun errand => errand.1 = q) r').2.seat q) := by
  induction errands generalizing r r' with
  | nil => exact ⟨rfl, alike⟩
  | cons errand errands ih =>
    obtain ⟨q', e⟩ := errand
    by_cases own : q' = q
    -- Both registries serve an errand for `q`; one for another queue is served in `r` only.
    · subst own
      obtain ⟨answer, alike'⟩ := k.alike_of_eq k' alike e
      obtain ⟨rest, end_⟩ := ih (k.call distinct q' e) (k'.call distinct q' e) alike'
      rw [List.filter_cons_of_pos (by simp)]
      refine ⟨?_, end_⟩
      simp only [serve, repliesOf, decide_true, List.filter_cons_of_pos, List.map_cons] at rest ⊢
      rw [answer, rest]
    · have alike' := (k.alike_of_ne distinct own e).symm.trans alike
      obtain ⟨rest, end_⟩ := ih (k.call distinct q' e) k' alike'
      rw [List.filter_cons_of_neg (by simpa using own)]
      refine ⟨?_, end_⟩
      rw [rest, serve, repliesOf, repliesOf, List.filter_cons_of_neg (by simpa using own)]

/-- **Queues do not see each other.** Serve any errands for any queues, one after the other, on a
host that answers, with three different tables, and check points at home (an empty store has none).
For each queue the replies to its own errands, but for the versions of views, its ledger with its
counters and its cursor, and its rows in all tables are the same as if the errands for other queues
had been left out. -/
theorem isolated {config : Config} {host : Host} (distinct : config.distinct)
    (answers : host.Answers) (homed : host.store.rows.Homed config)
    (errands : List (QueueId × Errand)) (q : QueueId) :
    let all := serve errands (start config host)
    let alone := serve (errands.filter fun errand => errand.1 = q) (start config host)
    repliesOf q all.1 = repliesOf q alone.1 ∧ all.2.ledgerOf q = alone.2.ledgerOf q ∧
      Rows.Agree config q all.2.rows alone.2.rows := by
  intro all alone
  have k := kept_start answers homed
  have alike : ((start config host).seat q).Alike ((start config host).seat q) :=
    (Site.Quiet.refl _).alike
  obtain ⟨replies, alike'⟩ := k.serve_alike distinct k alike errands
  have served := k.served distinct errands
  have ledger : alone.2.ledgerOf q = all.2.ledgerOf q := by simpa using alike'.ledger
  have rows : Rows.Agree config q all.2.rows alone.2.rows := by
    have agree := alike'.rows
    simp only [seat_ledger, seat_rows, served.config_eq, served.queue_eq] at agree
    exact agree
  exact ⟨replies.symm, ledger.symm, rows⟩

/-- Two queues of one topic with ordered deliveries of the same offsets to the same group, and a
third errand that clears the other queue: the first queue keeps its delivery and its locks. -/
theorem isolated_neighbours :
    let pop (q : QueueId) : Errand :=
      .command (.replay 1 (.pop ⟨q, 5, 9, 3, .order, 1000, 500, false, 0⟩))
    let errands : List (QueueId × Errand) :=
      [(⟨1, 0⟩, pop ⟨1, 0⟩), (⟨1, 1⟩, pop ⟨1, 1⟩), (⟨1, 1⟩, .command .takeSnapshot),
        (⟨1, 1⟩, .command .clear), (⟨1, 0⟩, .isLocked 5 9)]
    let all := serve errands (start .standard .fresh)
    let alone := serve [(⟨1, 0⟩, pop ⟨1, 0⟩), (⟨1, 0⟩, .isLocked 5 9)] (start .standard .fresh)
    all.1.length = 5 ∧ all.2.rows.size = 5 ∧
      repliesOf ⟨1, 0⟩ all.1 = repliesOf ⟨1, 0⟩ alone.1 ∧
      Rows.Agree .standard ⟨1, 0⟩ all.2.rows alone.2.rows := by
  intro pop errands all alone
  have homed : Host.fresh.store.rows.Homed .standard := by
    intro q key value c _ row
    rw [Host.get_fresh] at row
    cases row
  have served : all.1.length = 5 := by decide +kernel
  have size : all.2.rows.size = 5 := by decide +kernel
  have own : errands.filter (fun errand => errand.1 = ⟨1, 0⟩) =
      [(⟨1, 0⟩, pop ⟨1, 0⟩), (⟨1, 0⟩, .isLocked 5 9)] := by simp [errands]
  have apart := isolated (by decide) (fun _ _ => rfl) homed errands ⟨1, 0⟩
  rw [own] at apart
  exact ⟨served, size, apart.1, apart.2.2⟩

end Registry

end QueueLedger
