import QueueLedger.Proofs.Accounts
import QueueLedger.Proofs.Alike
/-!
# What the past says

A queue that is driven by replays alone is a function of the operations that it accepted: its
counters (`Replayed.counters_of_history`) and its deliveries in flight
(`Replayed.table_of_history`) can be read off the history of these operations. What was refused
leaves no trace.

## Proof shape

Three sets are read off a history: the deliveries in flight, and for each group and path the
offsets that were delivered and those that are covered. Each has a lemma that says what one more
accepted operation adds to it. A replay does the same to the rows and to the counters
(`Command.inFlight_of_decision`, `Ledger.Accounts.replay`), so that the sets of the history
describe the site after every replay (`Course.Kept.after`).
-/

namespace QueueLedger

namespace Operation

/-- The operation whose delivery an operation is about. A pop is about none. -/
def target? : Operation → Option UInt64
  | pop _ => none
  | ack a => some a.target
  | renewal w => some w.target

/-- The operation acknowledges the delivery of `target`. -/
def Settles : Operation → UInt64 → Prop
  | ack a, target => a.target = target
  | _, _ => False

/-- The time at which the delivery of `target` becomes visible, if the operation renews it. -/
def renews? : Operation → UInt64 → Option UInt64
  | renewal w, target => if w.target = target then some w.nextVisible else none
  | _, _ => none

end Operation

/-- An operation of the log, with its id. -/
structure LogEntry where
  id : UInt64
  operation : Operation
  deriving Repr, DecidableEq

/-- The operations that were accepted, the last one first. -/
abbrev History := List LogEntry

namespace History

/-- The time that the last renewal of the delivery of `target` set. -/
def renewed? (h : History) (target : UInt64) : Option UInt64 :=
  h.findSome? (·.operation.renews? target)

/-- The deliveries in flight: for each pop without an end mark whose delivery was not acknowledged
later, what it left, with the time of visibility that the last renewal set. -/
def inFlight (h : History) : Set CheckPoint :=
  {c | ∃ (later : History) (id : UInt64) (p : Pop) (earlier : History),
    h = later ++ ⟨id, .pop p⟩ :: earlier ∧ p.endMark = false ∧
      (∀ e ∈ later, ¬ e.operation.Settles id) ∧
      c = (CheckPoint.ofPop id p).renewed ((later.renewed? id).getD p.nextVisible)}

/-- The offsets up to which something was delivered to a group on a path. -/
def delivered (h : History) (g : UInt64) (path : Path) : Set UInt64 :=
  {o | ∃ e ∈ h, o ∈ e.operation.delivers g path}

/-- The offsets of a group on a path that are covered: those of pops with an end mark, and those of
deliveries that were in flight when they were acknowledged, unless these were ordered ones that
expired. -/
def covered (h : History) (g : UInt64) (path : Path) : Set UInt64 :=
  {o | ∃ (e : LogEntry) (earlier : History), e :: earlier <:+ h ∧
    o ∈ e.operation.covers earlier.inFlight g path}

variable {h : History} {e : LogEntry} {c : CheckPoint} {live : Set CheckPoint}

/-! ### One more operation -/

/-- The last renewal decides, whatever was set before. -/
theorem renewed_cons (e : LogEntry) (h : History) (target t : UInt64) :
    (renewed? (e :: h) target).getD t =
      (e.operation.renews? target).getD ((h.renewed? target).getD t) := by
  rw [renewed?, List.findSome?_cons]
  cases e.operation.renews? target <;> rfl

/-- A pop adds its delivery, an acknowledgment takes one away, and a renewal moves one. -/
theorem mem_inFlight_cons : c ∈ inFlight (e :: h) ↔
    (∃ p, e.operation = .pop p ∧ p.endMark = false ∧ c = .ofPop e.id p) ∨
      ∃ c' ∈ h.inFlight, ¬ e.operation.Settles c'.operation ∧
        c = c'.renewed ((e.operation.renews? c'.operation).getD c'.nextVisible) := by
  constructor
  · rintro ⟨later, id, p, earlier, split, mark, stays, rfl⟩
    cases later with
    | nil =>
      cases split
      exact Or.inl ⟨p, rfl, mark, rfl⟩
    | cons e' later =>
      cases split
      refine Or.inr ⟨_, ⟨later, id, p, earlier, rfl, mark, fun e' he' => ?_, rfl⟩,
        stays e List.mem_cons_self, ?_⟩
      · exact stays e' (List.mem_cons_of_mem e he')
      · rw [renewed_cons]
        rfl
  · rintro (⟨p, popped, mark, rfl⟩ |
      ⟨c', ⟨later, id, p, earlier, rfl, mark, stays, rfl⟩, other, rfl⟩)
    · exact ⟨[], e.id, p, h, by rw [← popped]; rfl, mark, by simp, rfl⟩
    · refine ⟨e :: later, id, p, earlier, rfl, mark, fun e' he' => ?_, ?_⟩
      · rcases List.mem_cons.1 he' with rfl | he'
        · exact other
        · exact stays e' he'
      · rw [renewed_cons]
        rfl

/-- What a replay makes of the deliveries in flight is what the history says with the operation. -/
theorem eq_inFlight_cons (single : ∀ c ∈ h.inFlight, ∀ c' ∈ h.inFlight,
      c.operation = c'.operation → c = c')
    (leads : (Command.replay e.id e.operation).LeadsTo h.inFlight live) :
    live = inFlight (e :: h) := by
  obtain ⟨id, op⟩ := e
  ext c'
  rw [mem_inFlight_cons]
  cases op with
  | pop p =>
    obtain rfl := leads
    have same (c : CheckPoint) : c.renewed c.nextVisible = c := rfl
    cases mark : p.endMark <;> simp [Operation.Settles, Operation.renews?, same, mark]
  | ack a =>
    obtain ⟨c, hc, target, rfl⟩ := leads
    simp only [Operation.Settles, Operation.renews?, reduceCtorEq, false_and, exists_false,
      false_or, Option.getD_none]
    constructor
    · rintro ⟨hc', other⟩
      exact ⟨c', hc', fun same => other (single c' hc' c hc (same.symm.trans target.symm)), rfl⟩
    · rintro ⟨c'', hc'', other, rfl⟩
      exact ⟨hc'', fun same => other (by rw [← target, ← same]; rfl)⟩
  | renewal w =>
    obtain ⟨c, hc, target, rfl⟩ := leads
    simp only [Operation.Settles, Operation.renews?, reduceCtorEq, false_and, exists_false,
      false_or, not_false_eq_true, true_and]
    constructor
    · rintro (rfl | ⟨hc', other⟩)
      · exact ⟨c, hc, by rw [if_pos target.symm]; rfl⟩
      · have elsewhere : ¬ w.target = c'.operation := fun same =>
          other (single c' hc' c hc (same.symm.trans target.symm))
        exact ⟨c', hc', by rw [if_neg elsewhere]; rfl⟩
    · rintro ⟨c'', hc'', rfl⟩
      by_cases here : w.target = c''.operation
      · obtain rfl := single c'' hc'' c hc (here.symm.trans target.symm)
        rw [if_pos here]
        exact Or.inl rfl
      · rw [if_neg here]
        exact Or.inr ⟨hc'', fun same => here (by rw [← target, ← same]; rfl)⟩

theorem delivered_cons (e : LogEntry) (h : History) :
    delivered (e :: h) = h.delivered ⊔ e.operation.delivers := by
  funext g path
  ext o
  simp [delivered, or_comm]

theorem covered_cons (e : LogEntry) (h : History) :
    covered (e :: h) = h.covered ⊔ e.operation.covers h.inFlight := by
  funext g path
  ext o
  constructor
  · rintro ⟨e', earlier, suffix, ho⟩
    rcases List.suffix_cons_iff.1 suffix with same | older
    · cases same
      exact Or.inr ho
    · exact Or.inl ⟨e', earlier, older, ho⟩
  · rintro (⟨e', earlier, older, ho⟩ | ho)
    · exact ⟨e', earlier, List.suffix_cons_iff.2 (Or.inr older), ho⟩
    · exact ⟨e, h, List.suffix_rfl, ho⟩

/-! ### What a history holds -/

/-- A delivery in flight goes back to a pop. -/
theorem exists_pop_of_inFlight (hc : c ∈ h.inFlight) :
    ∃ e ∈ h, ∃ p, e.operation = .pop p ∧ c.group = p.group ∧ c.kind = p.kind ∧
      c.offset = p.offset := by
  obtain ⟨later, id, p, earlier, rfl, -, -, rfl⟩ := hc
  exact ⟨⟨id, .pop p⟩, by simp, p, rfl, rfl, rfl, rfl⟩

theorem delivered_of_inFlight (hc : c ∈ h.inFlight) :
    c.offset ∈ h.delivered c.group c.kind.path := by
  obtain ⟨e, he, p, popped, group, kind, offset⟩ := exists_pop_of_inFlight hc
  refine ⟨e, he, ?_⟩
  rw [popped]
  exact ⟨group, congrArg PopKind.path kind, offset⟩

end History

/-! ### Runs of replays -/

/-- Where a run of replays has led, and what was accepted on the way. -/
structure Course where
  site : Site
  history : History

namespace Course

/-- Before the first replay. -/
def start (queue : QueueId) (config : Config) (host : Host) : Course :=
  ⟨⟨.empty queue config, host⟩, []⟩

/-- After a replay, which is remembered if it was accepted. -/
def after (t : Course) (e : LogEntry) : Course :=
  match Act.replay e.id e.operation t.site with
  | (.ok (), s) => ⟨s, e :: t.history⟩
  | (.error _, s) => ⟨s, t.history⟩

end Course

namespace Course

/-- The history describes the site. -/
structure Kept (queue : QueueId) (config : Config) (t : Course) : Prop where
  queue_eq : t.site.ledger.queue = queue
  config_eq : t.site.ledger.config = config
  inFlight : InFlight t.site.ledger t.site.rows t.history.inFlight
  accounts : t.site.ledger.Accounts t.history.delivered t.history.covered

variable {queue : QueueId} {config : Config} {host : Host} {t : Course} {e : LogEntry}

theorem kept_start (bare : ∀ a, Owned config queue a → host.store.rows.get a.space a.key = none) :
    Kept queue config (start queue config host) where
  queue_eq := rfl
  config_eq := rfl
  inFlight := by
    have nothing : History.inFlight [] = ∅ := by
      ext c
      simp [History.inFlight]
    rw [start, nothing]
    exact ⟨.of_none bare, fun c hc => hc.elim⟩
  accounts := by
    have nothing : History.delivered [] = fun _ _ => ∅ := by
      funext g path
      simp [History.delivered]
    have nothing' : History.covered [] = fun _ _ => ∅ := by
      funext g path
      simp [History.covered]
    rw [start, nothing, nothing']
    exact .empty queue config

theorem Kept.distinct (distinct : config.distinct) (k : Kept queue config t) :
    t.site.ledger.config.distinct := by
  rw [k.config_eq]
  exact distinct

/-- A replay is accepted and adds to the history, or it is refused and changes nothing. -/
theorem Kept.after (distinct : config.distinct) (k : Kept queue config t)
    (above : t.site.ledger.Above e.id) (ends : (Command.replay e.id e.operation).Bounded) :
    Kept queue config (t.after e) := by
  have distinct' := k.distinct distinct
  unfold Course.after
  rcases Act.replay_does e.id e.operation t.site with
    ⟨f, answer, quiet, -⟩ | ⟨d, decided, answer, done⟩
  · rcases run : Act.replay e.id e.operation t.site with ⟨r, s⟩
    rw [run] at answer quiet
    cases answer
    refine ⟨?_, ?_, ?_, ?_⟩
    · rw [quiet.ledger, k.queue_eq]
    · rw [quiet.ledger, k.config_eq]
    · rw [quiet.ledger, quiet.rows]
      exact k.inFlight
    · rw [quiet.ledger]
      exact k.accounts
  · obtain ⟨own, config'⟩ := Command.stays_of_decision (c := .replay e.id e.operation) decided
    obtain ⟨live, leads, re, covered⟩ :=
      Command.inFlight_of_decision (c := .replay e.id e.operation) distinct' k.inFlight above
        decided
    obtain rfl := History.eq_inFlight_cons
      (fun c hc c' hc' => k.inFlight.mirrors.eq_of_operation hc hc') leads
    obtain ⟨outcome, accounts⟩ := k.accounts.replay (k.inFlight.mirrors.filed distinct')
      (fun c hc => History.delivered_of_inFlight hc) ends decided
    rcases run : Act.replay e.id e.operation t.site with ⟨r, s⟩
    rw [run, outcome] at answer
    rw [run] at done
    cases answer
    refine ⟨?_, ?_, ?_, ?_⟩
    · rw [done.ledger, own, k.queue_eq]
    · rw [done.ledger, config', k.config_eq]
    · rw [done.ledger, done.rows]
      refine ⟨?_, covered⟩
      rw [own, config']
      exact re.mirrors
    · rw [done.ledger, History.delivered_cons, History.covered_cons]
      exact accounts

end Course

namespace Ledger

variable {l : Ledger} {r : Rows} {id target : UInt64} {op : Operation}

/-- An operation about a delivery that is not found is refused for this reason. -/
theorem replayDecision_of_missing {e : Failure} (turn : l.checkTurn id op.queue = .ok ())
    (about : op.target? = some target) (missing : l.found r target = .error e) :
    replayDecision id op l r = .error e := by
  cases op with
  | pop p => cases about
  | ack a =>
    cases about
    show l.checkTurn id a.queue >>= _ = _
    rw [show l.checkTurn id a.queue = .ok () from turn, missing]
    rfl
  | renewal w =>
    cases about
    show l.checkTurn id w.queue >>= _ = _
    rw [show l.checkTurn id w.queue = .ok () from turn, missing]
    rfl

/-- One about a delivery that is found may be refused for other reasons only. -/
theorem replayDecision_ne_notFound {c : CheckPoint} (turn : l.checkTurn id op.queue = .ok ())
    (about : op.target? = some target) (found : l.found r target = .ok c) (q : QueueId)
    (n : UInt64) : replayDecision id op l r ≠ .error (.checkPointNotFound q n) := by
  have passed : l.checkTurn id op.queue ≠ .error (.checkPointNotFound q n) := by rw [turn]; nofun
  cases op with
  | pop p => cases about
  | ack a =>
    cases about
    refine bind_ne_error passed fun _ => bind_ne_error (by rw [found]; nofun) fun c' => ?_
    split
    next => nofun
    next path _ =>
      exact bind_ne_error (checkWindow_ne_error nofun) fun _ => nofun
  | renewal w =>
    cases about
    exact bind_ne_error passed fun _ => bind_ne_error (by rw [found]; nofun) fun _ => nofun

end Ledger

namespace Course

variable {queue : QueueId} {config : Config} {t : Course} {id target : UInt64} {op : Operation}

/-- A replay of an operation about a delivery is refused because there is none exactly if the
history has none in flight. -/
theorem Kept.notFound (distinct : config.distinct) (k : Kept queue config t)
    (answers : t.site.host.Answers) (above : t.site.ledger.Above id) (own : op.queue = queue)
    (about : op.target? = some target) :
    ((∀ c ∈ t.history.inFlight, c.operation ≠ target) →
      (Act.replay id op t.site).1 = .error (.checkPointNotFound queue target)) ∧
    ((∃ c ∈ t.history.inFlight, c.operation = target) →
      ∀ q n, (Act.replay id op t.site).1 ≠ .error (.checkPointNotFound q n)) := by
  have distinct' := k.distinct distinct
  have filed := k.inFlight.mirrors.filed distinct'
  have turn := Ledger.checkTurn_of_above (own.trans k.queue_eq.symm) above
  constructor
  · intro absent
    have missing := filed.found_of_forall_ne absent
    rw [k.queue_eq] at missing
    have refused := Ledger.replayDecision_of_missing turn about missing
    rcases (Act.replay_does id op).of_answers answers with
      ⟨e, decided, answer, -⟩ | ⟨d, decided, -, -⟩
    · rw [refused] at decided
      cases decided
      exact answer
    · rw [refused] at decided
      cases decided
  · rintro ⟨c, hc, rfl⟩ q n refused
    have others := Ledger.replayDecision_ne_notFound turn about (filed.found_of_mem hc) q n
    rcases (Act.replay_does id op).of_answers answers with
      ⟨e, decided, answer, -⟩ | ⟨d, decided, answer, -⟩
    · rw [answer] at refused
      cases refused
      exact others decided
    · -- What is decided is carried out, since no pop is about a delivery.
      have ends : (Command.replay id op).Bounded := by
        cases op with
        | pop p => cases about
        | ack a => trivial
        | renewal w => trivial
      have outcome := (k.accounts.replay filed (fun c hc => History.delivered_of_inFlight hc) ends
        decided).1
      rw [answer, outcome] at refused
      cases refused

end Course

end QueueLedger
