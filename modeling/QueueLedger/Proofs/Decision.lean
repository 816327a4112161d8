import QueueLedger.Ledger.Recovery
import QueueLedger.Ledger.Replay
/-!
# What a call decides

Every call on a ledger has three parts. It reads and checks, and nothing changes meanwhile; it
sends one batch, or none; then it changes the ledger. What it sends and what becomes of the
ledger are fixed by then: they are a function of the ledger and of the rows of the store. Here
this function is written down for each call (`Ledger.popDecision` and its siblings), and the call
is shown to follow it (`Act.Does`).

Facts about calls are derived from the decisions. Calls are opened again only where it matters which
of the calls on the store is refused (`QueueLedger.Proofs.Lockstep`).

## Proof shape

Three kinds of actions are told apart, each with its own rule for sequences:

* `Act.Reads x v`: `x` changes nothing and gives what `v` says of the ledger and the rows;
* `Act.Updates x g`: `x` changes the ledger as `g` says, and leaves the store alone;
* `Act.Does x d`: `x` fails and changes nothing, or carries out the decision `d`.

The store may refuse any call. A refusal shows as a fault in the part that reads or at the batch,
so it only ever turns a decision into a failure that changes nothing.
-/

namespace QueueLedger

/-- What a call sends to the store, what it tells its caller, and the ledger afterwards. -/
structure Decision where
  /-- The requests of its batch. If there are none, no batch is sent. -/
  requests : List Request
  /-- What the caller is told. -/
  outcome : Except Failure Unit
  /-- The ledger afterwards. -/
  ledger : Ledger

namespace Host

/-- No call on the store is refused. -/
def Answers (h : Host) : Prop := ∀ c n, h.outages.refuses c n = false

/-- The store, the number of its batches and the schedule of refusals are the same. -/
structure Steady (h h' : Host) : Prop where
  store : h'.store = h.store
  batches : h'.batches = h.batches
  refuses : h'.outages.refuses = h.outages.refuses

theorem Steady.refl (h : Host) : Steady h h := ⟨rfl, rfl, rfl⟩

theorem Steady.trans {h₁ h₂ h₃ : Host} (a : Steady h₁ h₂) (b : Steady h₂ h₃) : Steady h₁ h₃ :=
  ⟨b.store.trans a.store, b.batches.trans a.batches, b.refuses.trans a.refuses⟩

theorem Steady.answers {h h' : Host} (a : Steady h h') : h'.Answers ↔ h.Answers := by
  rw [Answers, Answers, a.refuses]

end Host

namespace Site

/-- The rows of the store. -/
def rows (s : Site) : Rows := s.host.store.rows

/-- From `s` to `s'` nothing changes but counters, notices and the number of calls made. -/
structure Quiet (s s' : Site) : Prop where
  ledger : s'.ledger = s.ledger
  host : s.host.Steady s'.host

theorem Quiet.refl (s : Site) : Quiet s s := ⟨rfl, .refl s.host⟩

theorem Quiet.trans {s₁ s₂ s₃ : Site} (a : Quiet s₁ s₂) (b : Quiet s₂ s₃) : Quiet s₁ s₃ :=
  ⟨b.ledger.trans a.ledger, a.host.trans b.host⟩

theorem Quiet.rows {s s' : Site} (q : Quiet s s') : s'.rows = s.rows := by
  rw [Site.rows, Site.rows, q.host.store]

/-- From `s` to `s'` a decision is carried out. -/
structure Done (s : Site) (d : Decision) (s' : Site) : Prop where
  ledger : s'.ledger = d.ledger
  store : s'.host.store = s.host.store.apply d.requests
  batches : s'.host.batches = s.host.batches + if d.requests.isEmpty then 0 else 1
  refuses : s'.host.outages.refuses = s.host.outages.refuses

theorem Done.rows {s s' : Site} {d : Decision} (h : Done s d s') :
    s'.rows = s.rows.apply d.requests := by
  rw [Site.rows, h.store]; rfl

end Site

namespace Act

variable {α β : Type}

/-! ### Reading -/

/-- The answer is `v`, or it is a fault of a store that refuses calls. -/
def Yields (s : Site) (r v : Except Failure α) : Prop :=
  r = v ∨ ¬ s.host.Answers ∧ ∃ fault, r = .error (.store fault)

/-- The action changes nothing and gives what `v` says of the ledger and the rows. -/
def Reads (x : Act α) (v : Ledger → Rows → Except Failure α) : Prop :=
  ∀ s, Site.Quiet s (x s).2 ∧ Yields s (x s).1 (v s.ledger s.rows)

theorem Reads.congr {x : Act α} {v v' : Ledger → Rows → Except Failure α} (h : Reads x v)
    (eq : ∀ l r, v l r = v' l r) : Reads x v' := by
  have : v = v' := funext fun l => funext (eq l)
  rwa [← this]

theorem Reads.of_answers {x : Act α} {v : Ledger → Rows → Except Failure α}
    (h : Reads x v) {s : Site} (answers : s.host.Answers) : (x s).1 = v s.ledger s.rows := by
  rcases (h s).2 with eq | ⟨refuses, -⟩
  · exact eq
  · exact absurd answers refuses

theorem reads_pure (a : α) : Reads (pure a) fun _ _ => .ok a :=
  fun s => ⟨.refl s, Or.inl rfl⟩

theorem reads_ledger : Reads ledger fun l _ => .ok l :=
  fun s => ⟨.refl s, Or.inl rfl⟩

theorem reads_ofExcept (r : Except Failure α) : Reads (ofExcept r) fun _ _ => r :=
  fun s => ⟨.refl s, Or.inl rfl⟩

theorem reads_tell (n : Notice) : Reads (tell n) fun _ _ => .ok () :=
  fun _ => ⟨⟨rfl, ⟨rfl, rfl, rfl⟩⟩, Or.inl rfl⟩

theorem reads_count (f : Tally → Tally) : Reads (count f) fun _ _ => .ok () :=
  fun _ => ⟨⟨rfl, ⟨rfl, rfl, rfl⟩⟩, Or.inl rfl⟩

/-- Reading twice. The second action sees what the first one saw. -/
theorem Reads.bind {x : Act α} {f : α → Act β} {v : Ledger → Rows → Except Failure α}
    {w : α → Ledger → Rows → Except Failure β} (hx : Reads x v) (hf : ∀ a, Reads (f a) (w a)) :
    Reads (x >>= f) fun l r => v l r >>= fun a => w a l r := by
  intro s
  obtain ⟨quiet, yield⟩ := hx s
  rw [bind_run]
  rcases hxs : x s with ⟨e | a, s'⟩
  · rw [hxs] at quiet yield
    refine ⟨quiet, ?_⟩
    rcases yield with eq | ⟨refuses, fault, eq⟩
    · left
      show Except.error e = v s.ledger s.rows >>= fun a => w a s.ledger s.rows
      rw [← eq]; rfl
    · cases eq
      exact Or.inr ⟨refuses, fault, rfl⟩
  · rw [hxs] at quiet yield
    -- The second action starts elsewhere, but the ledger and the rows there are the same.
    obtain ⟨quiet', yield'⟩ := hf a s'
    refine ⟨quiet.trans quiet', ?_⟩
    rcases yield with eq | ⟨-, fault, eq⟩
    · rw [quiet.ledger, quiet.rows] at yield'
      show Yields s (f a s').1 (v s.ledger s.rows >>= fun a => w a s.ledger s.rows)
      rw [← eq]
      exact yield'.imp_right fun ⟨refuses, fault⟩ => ⟨mt quiet.host.answers.2 refuses, fault⟩
    · cases eq

/-- Reading once for each item of a list. -/
theorem Reads.forM {f : β → Act Unit} {v : β → Ledger → Rows → Except Failure Unit}
    (hf : ∀ b, Reads (f b) (v b)) (bs : List β) :
    Reads (bs.forM f) fun l r => bs.forM fun b => v b l r := by
  induction bs with
  | nil => exact reads_pure ()
  | cons b bs ih => exact (hf b).bind fun _ => ih

/-- A call on the store that only looks at its rows is refused or answered. -/
theorem reads_attempt (c : Call) (answer : Rows → α) :
    Reads (onHost (Host.attempt c fun h => (answer h.store.rows, h)))
      fun _ r => .ok (answer r) := by
  intro s
  cases hr : s.host.outages.refusesNext c with
  | true =>
    rw [onHost, Host.attempt_refused hr]
    refine ⟨⟨rfl, ⟨rfl, rfl, rfl⟩⟩, Or.inr ⟨fun all => ?_, _, rfl⟩⟩
    rw [Outages.refusesNext, all] at hr
    cases hr
  | false =>
    rw [onHost, Host.attempt_answered hr]
    exact ⟨⟨rfl, ⟨rfl, rfl, rfl⟩⟩, Or.inl rfl⟩

theorem reads_get (space : String) (key : Bytes) :
    Reads (onHost (Host.get space key)) fun _ r => .ok (r.get space key) :=
  reads_attempt .get fun r => r.get space key

theorem reads_iterate {σ : Type} (space : String) (range : Range)
    (visitor : σ → Bytes → Bytes → Visit σ) (init : σ) :
    Reads (onHost (Host.iterate space range visitor init)) fun _ r =>
      .ok (walk visitor init (range.select (r.inSpace space))) :=
  reads_attempt .iterate fun r => walk visitor init (range.select (r.inSpace space))

end Act

/-! ### What the reading parts find -/

namespace Ledger

/-- The check points that the rows of the queue hold. -/
def scanned (l : Ledger) (r : Rows) : Except Failure (List CheckPoint) :=
  ((Range.under (CheckPoint.scope l.queue)).select (r.inSpace l.config.checkPoints)).mapM
    fun (_, value) => CheckPoint.decode value

/-- The check point that the row of an operation holds. -/
def found (l : Ledger) (r : Rows) (operation : UInt64) : Except Failure CheckPoint :=
  match r.get l.config.checkPoints (CheckPoint.keyOf l.queue operation) with
  | some value => CheckPoint.decode value
  | none => .error (.checkPointNotFound l.queue operation)

/-- Refuses a delivery whose lock under a key has another owner. -/
def unlockedAt (l : Ledger) (r : Rows) (c : CheckPoint) (key : Bytes) : Except Failure Unit :=
  match r.get l.config.locks key with
  | none => .ok ()
  | some value => do
    let owner ← OrderLock.owner value
    if owner = c.operation then .ok () else .error (.illegalArgument (.locked c.offset owner))

/-- Refuses a delivery one of whose locks has another owner. -/
def unlocked (l : Ledger) (r : Rows) (c : CheckPoint) : Except Failure Unit :=
  c.lockKeys.forM fun key => l.unlockedAt r c key

end Ledger

namespace Act

theorem checkPointRows_reads : Reads checkPointRows fun l r =>
    .ok ((Range.under (CheckPoint.scope l.queue)).select (r.inSpace l.config.checkPoints)) := by
  refine (reads_ledger.bind fun l => (reads_iterate l.config.checkPoints
    (.under (CheckPoint.scope l.queue)) collectAll #[]).bind fun a => reads_pure a.toList).congr
    fun l r => ?_
  simp [bind, Except.bind, toList_walk_collectAll]

theorem scan_reads : Reads scan fun l r => l.scanned r :=
  checkPointRows_reads.bind fun _ => reads_ofExcept _

theorem find_reads (operation : UInt64) :
    Reads (find operation) fun l r => l.found r operation := by
  refine (reads_ledger.bind fun l => (reads_get l.config.checkPoints
    (CheckPoint.keyOf l.queue operation)).bind (w := fun row _ _ => match row with
      | some value => CheckPoint.decode value
      | none => .error (.checkPointNotFound l.queue operation)) fun row => ?_).congr fun l r => rfl
  cases row with
  | none => exact reads_ofExcept _
  | some value => exact reads_ofExcept _

/-- Refuses a delivery whose lock under a key has another owner. -/
def checkUnlockedAt (l : Ledger) (c : CheckPoint) (key : Bytes) : Act Unit := do
  match ← onHost (Host.get l.config.locks key) with
  | none => pure ()
  | some value =>
    let owner ← ofExcept (OrderLock.owner value)
    if owner = c.operation then pure ()
    else ofExcept (.error (.illegalArgument (.locked c.offset owner)))

theorem checkUnlocked_eq (c : CheckPoint) :
    checkUnlocked c = ledger >>= fun l => c.lockKeys.forM (checkUnlockedAt l c) := rfl

theorem checkUnlockedAt_reads (l : Ledger) (c : CheckPoint) (key : Bytes) :
    Reads (checkUnlockedAt l c key) fun _ r => l.unlockedAt r c key := by
  refine ((reads_get l.config.locks key).bind (w := fun row _ _ => match row with
      | none => .ok ()
      | some value => do
        let owner ← OrderLock.owner value
        if owner = c.operation then .ok ()
        else .error (.illegalArgument (.locked c.offset owner))) fun row => ?_).congr fun _ r => rfl
  cases row with
  | none => exact reads_pure ()
  | some value =>
    refine (reads_ofExcept (OrderLock.owner value)).bind (w := fun owner _ _ =>
      if owner = c.operation then .ok ()
      else .error (.illegalArgument (.locked c.offset owner))) fun owner => ?_
    split
    · exact reads_pure ()
    · exact reads_ofExcept _

theorem checkUnlocked_reads (c : CheckPoint) :
    Reads (checkUnlocked c) fun l r => l.unlocked r c := by
  rw [checkUnlocked_eq]
  exact (reads_ledger.bind fun l => Reads.forM (checkUnlockedAt_reads l c) c.lockKeys).congr
    fun _ _ => rfl

/-- A check that looks at the ledger only. -/
theorem reads_check (f : Ledger → Except Failure α) :
    Reads (ledger >>= fun l => ofExcept (f l)) fun l _ => f l :=
  fun s => ⟨.refl s, Or.inl rfl⟩

theorem checkWindow_reads (group : UInt64) (path : Path) (b : Batch) :
    Reads (checkWindow group path b) fun l _ => l.checkWindow group path b :=
  reads_check fun l => l.checkWindow group path b

theorem checkTurn_reads (operation : UInt64) (queue : QueueId) :
    Reads (checkTurn operation queue) fun l _ => l.checkTurn operation queue :=
  reads_check fun l => l.checkTurn operation queue

/-! ### Changing the ledger -/

/-- The action answers and changes the ledger as `g` says, and leaves the store alone. -/
def Updates (x : Act Unit) (g : Ledger → Except Failure Unit × Ledger) : Prop :=
  ∀ s, (x s).1 = (g s.ledger).1 ∧ (x s).2.ledger = (g s.ledger).2 ∧ s.host.Steady (x s).2.host

theorem Updates.congr {x : Act Unit} {g g' : Ledger → Except Failure Unit × Ledger}
    (h : Updates x g) (eq : ∀ l, g l = g' l) : Updates x g' := by
  rwa [← funext eq]

theorem updates_pure : Updates (pure ()) fun l => (.ok (), l) :=
  fun s => ⟨rfl, rfl, .refl s.host⟩

theorem updates_tell (n : Notice) : Updates (tell n) fun l => (.ok (), l) :=
  fun _ => ⟨rfl, rfl, ⟨rfl, rfl, rfl⟩⟩

theorem updates_change (f : Ledger → Ledger) : Updates (change f) fun l => (.ok (), f l) :=
  fun s => ⟨rfl, rfl, .refl s.host⟩

/-- One update after the other. The second one is left out if the first one fails. -/
theorem Updates.bind {x y : Act Unit} {g k : Ledger → Except Failure Unit × Ledger}
    (hx : Updates x g) (hy : Updates y k) :
    Updates (x >>= fun _ => y) fun l =>
      match g l with
      | (.ok (), l') => k l'
      | (.error e, l') => (.error e, l') := by
  intro s
  obtain ⟨answer, after, steady⟩ := hx s
  rw [bind_run]
  dsimp only
  rcases hxs : x s with ⟨e | a, s'⟩
  · rw [hxs] at answer after steady
    rcases hg : g s.ledger with ⟨r, l'⟩
    rw [hg] at answer after
    cases answer
    exact ⟨rfl, after, steady⟩
  · rw [hxs] at answer after steady
    rcases hg : g s.ledger with ⟨r, l'⟩
    rw [hg] at answer after
    cases answer
    cases after
    obtain ⟨answer', after', steady'⟩ := hy s'
    exact ⟨answer', after', steady.trans steady'⟩

end Act

namespace Ledger

/-- Records acknowledgments one by one, and stops at the first that fails. -/
def commitEach (l : Ledger) (g : UInt64) (path : Path) : List UInt64 → Except Failure Unit × Ledger
  | [] => (.ok (), l)
  | o :: os =>
    match l.commit g path o with
    | .error e => (.error e, l)
    | .ok (l', _) => commitEach l' g path os

end Ledger

namespace Act

theorem updates_commit (g : UInt64) (path : Path) (o : UInt64) :
    Updates (commit g path o) fun l =>
      match l.commit g path o with
      | .error e => (.error e, l)
      | .ok (l', _) => (.ok (), l') := by
  intro s
  unfold commit
  dsimp only
  cases s.ledger.commit g path o with
  | error e => exact ⟨rfl, rfl, .refl s.host⟩
  | ok r =>
    obtain ⟨l', c⟩ := r
    dsimp only
    cases c.advanced with
    | none => exact ⟨rfl, rfl, ⟨rfl, rfl, rfl⟩⟩
    | some mark => exact ⟨rfl, rfl, ⟨rfl, rfl, rfl⟩⟩

theorem commitAll_updates (g : UInt64) (path : Path) (b : Batch) :
    Updates (commitAll g path b) fun l => l.commitEach g path b.offsets := by
  rw [commitAll, Batch.visit_eq]
  generalize b.offsets = os
  induction os with
  | nil => exact updates_pure
  | cons o os ih =>
    refine ((updates_commit g path o).bind ih).congr fun l => ?_
    rw [Ledger.commitEach]
    cases l.commit g path o <;> rfl

/-! ### Sending a batch -/

/-- The action fails and changes nothing, as the decision says or because the store refuses a
call; or it carries out the decision. -/
def Does (x : Act Unit) (d : Ledger → Rows → Except Failure Decision) : Prop :=
  ∀ s, (∃ e, (x s).1 = .error e ∧ Site.Quiet s (x s).2 ∧
      (d s.ledger s.rows = .error e ∨ ¬ s.host.Answers ∧ ∃ fault, e = .store fault)) ∨
    ∃ dec, d s.ledger s.rows = .ok dec ∧ (x s).1 = dec.outcome ∧ Site.Done s dec (x s).2

theorem Does.congr {x : Act Unit} {d d' : Ledger → Rows → Except Failure Decision} (h : Does x d)
    (eq : ∀ l r, d l r = d' l r) : Does x d' := by
  have : d = d' := funext fun l => funext (eq l)
  rwa [← this]

/-- A batch, and then the ledger. -/
theorem Updates.submit {y : Act Unit} {g : Ledger → Except Failure Unit × Ledger}
    (hy : Updates y g) (requests : List Request) :
    Does (submit requests >>= fun _ => y) fun l _ => .ok ⟨requests, (g l).1, (g l).2⟩ := by
  intro s
  rw [bind_run]
  cases requests with
  | nil =>
    rw [submit_nil, pure_run]
    obtain ⟨answer, after, steady⟩ := hy s
    exact Or.inr ⟨_, rfl, answer, after, steady.store, steady.batches, steady.refuses⟩
  | cons q qs =>
    rw [submit_of_ne_nil (List.cons_ne_nil q qs), onHost, Host.batch]
    cases hr : s.host.outages.refusesNext .batch with
    | true =>
      rw [Host.attempt_refused hr]
      refine Or.inl ⟨_, rfl, ⟨rfl, ⟨rfl, rfl, rfl⟩⟩, Or.inr ⟨fun all => ?_, _, rfl⟩⟩
      rw [Outages.refusesNext, all] at hr
      cases hr
    | false =>
      rw [Host.attempt_answered hr]
      obtain ⟨answer, after, steady⟩ := hy _
      exact Or.inr ⟨_, rfl, answer, after, steady.store, steady.batches, steady.refuses⟩

/-- What is read first decides, together with what is done after it. -/
theorem Reads.does {x : Act α} {f : α → Act Unit} {v : Ledger → Rows → Except Failure α}
    {d : α → Ledger → Rows → Except Failure Decision} (hx : Reads x v)
    (hf : ∀ a, Does (f a) (d a)) :
    Does (x >>= f) fun l r => v l r >>= fun a => d a l r := by
  intro s
  obtain ⟨quiet, yield⟩ := hx s
  rw [bind_run]
  rcases hxs : x s with ⟨e | a, s'⟩
  · rw [hxs] at quiet yield
    refine Or.inl ⟨e, rfl, quiet, ?_⟩
    rcases yield with eq | ⟨refuses, fault, eq⟩
    · left
      show v s.ledger s.rows >>= _ = _
      rw [← eq]; rfl
    · cases eq
      exact Or.inr ⟨refuses, fault, rfl⟩
  · rw [hxs] at quiet yield
    rcases yield with eq | ⟨-, fault, eq⟩
    · -- What the rest decides where it starts is what it decides at `s`.
      have same : (v s.ledger s.rows >>= fun a => d a s.ledger s.rows) = d a s.ledger s.rows := by
        rw [← eq]; rfl
      have after := hf a s'
      rw [quiet.ledger, quiet.rows, ← same] at after
      rcases after with ⟨e, answer, quiet', why⟩ | ⟨dec, decided, answer, done⟩
      · refine Or.inl ⟨e, answer, quiet.trans quiet', ?_⟩
        exact why.imp_right fun ⟨refuses, fault⟩ => ⟨mt quiet.host.answers.2 refuses, fault⟩
      · refine Or.inr ⟨dec, decided, answer, done.ledger, ?_, ?_, ?_⟩
        · rw [done.store, quiet.host.store]
        · rw [done.batches, quiet.host.batches]
        · rw [done.refuses, quiet.host.refuses]
    · cases eq

/-- The scope of an action does not matter. -/
theorem Does.within {x : Act Unit} {d : Ledger → Rows → Except Failure Decision} (h : Does x d)
    (scope : Scope) : Does (within scope x) d := by
  intro s
  rcases h { s with host := s.host.inScope (some scope) } with
    ⟨e, answer, quiet, why⟩ | ⟨dec, decided, answer, done⟩
  · exact Or.inl ⟨e, answer, ⟨quiet.ledger, ⟨quiet.host.store, quiet.host.batches,
      quiet.host.refuses⟩⟩, why⟩
  · exact Or.inr ⟨dec, decided, answer, done.ledger, done.store, done.batches, done.refuses⟩

/-- Nor does it matter that a replay is counted and reported. -/
theorem Does.observed {x : Act Unit} {d : Ledger → Rows → Except Failure Decision} (h : Does x d)
    (kind : OperationKind) (operation : UInt64) : Does (observed kind operation x) d := by
  intro s
  have after := h s
  unfold Act.observed
  rcases hxs : x s with ⟨e | a, s'⟩
  · rw [hxs] at after
    rcases after with ⟨e', answer, quiet, why⟩ | ⟨dec, decided, answer, done⟩
    · exact Or.inl ⟨e', answer, ⟨quiet.ledger, ⟨quiet.host.store, quiet.host.batches,
        quiet.host.refuses⟩⟩, why⟩
    · exact Or.inr ⟨dec, decided, answer, done.ledger, done.store, done.batches, done.refuses⟩
  · rw [hxs] at after
    rcases after with ⟨e', answer, quiet, why⟩ | ⟨dec, decided, answer, done⟩
    · cases answer
    · exact Or.inr ⟨dec, decided, answer, done.ledger, done.store, done.batches, done.refuses⟩

/-- Counting and telling decides nothing. -/
theorem Reads.skip {x : Act α} {a : α} {f : α → Act Unit}
    {d : Ledger → Rows → Except Failure Decision} (hx : Reads x fun _ _ => .ok a)
    (hf : Does (f a) d) : Does (x >>= f) d := by
  intro s
  obtain ⟨quiet, yield⟩ := hx s
  have step : Does (x >>= fun _ => f a) d :=
    (hx.does (f := fun _ => f a) (d := fun _ => d) fun _ => hf).congr fun _ _ => rfl
  have same : (x >>= f) s = (x >>= fun _ => f a) s := by
    rw [bind_run, bind_run]
    rcases hxs : x s with ⟨e | b, s'⟩
    · rfl
    · rw [hxs] at yield
      rcases yield with eq | ⟨-, fault, eq⟩ <;> cases eq
      rfl
  rw [same]
  exact step s

/-- A look at the ledger. -/
theorem ledger_does {f : Ledger → Act Unit} {d : Ledger → Ledger → Rows → Except Failure Decision}
    (hf : ∀ l, Does (f l) (d l)) : Does (ledger >>= f) fun l r => d l l r :=
  (reads_ledger.does hf).congr fun _ _ => rfl

end Act

/-! ### The decisions -/

/-- A chain of checks passes exactly if the first one and the rest do. -/
theorem bind_eq_ok {α β : Type} {x : Except Failure α} {f : α → Except Failure β} {b : β} :
    x >>= f = .ok b ↔ ∃ a, x = .ok a ∧ f a = .ok b := by
  cases x with
  | error e =>
    refine iff_of_false (fun h => ?_) ?_
    · cases h
    · intro h
      obtain ⟨a, h, -⟩ := h
      cases h
  | ok a =>
    constructor
    · exact fun h => ⟨a, rfl, h⟩
    · intro h
      obtain ⟨a', h, h'⟩ := h
      cases h
      exact h'

theorem ok_ne_error {α : Type} (a : α) (e : Failure) : (.ok a : Except Failure α) ≠ .error e :=
  nofun

/-- A chain of checks fails for a reason of one of them. -/
theorem bind_ne_error {α β : Type} {x : Except Failure α} {f : α → Except Failure β} {e : Failure}
    (first : x ≠ .error e) (rest : ∀ a, f a ≠ .error e) : x >>= f ≠ .error e := by
  cases x with
  | error e' => exact fun refused => first (by cases refused; rfl)
  | ok a => exact rest a

theorem mapM_ne_error {α β : Type} {f : α → Except Failure β} {e : Failure}
    (each : ∀ a, f a ≠ .error e) (as : List α) : as.mapM f ≠ .error e := by
  induction as with
  | nil => nofun
  | cons a as ih =>
    rw [List.mapM_cons]
    exact bind_ne_error (each a) fun _ => bind_ne_error ih fun _ => nofun

theorem forM_ne_error {α : Type} {f : α → Except Failure Unit} {e : Failure}
    (each : ∀ a, f a ≠ .error e) (as : List α) : as.forM f ≠ .error e := by
  induction as with
  | nil => nofun
  | cons a as ih => exact bind_ne_error (each a) fun _ => ih

theorem foldlM_ne_error {α β : Type} {f : β → α → Except Failure β} {e : Failure}
    (each : ∀ b a, f b a ≠ .error e) (as : List α) (b : β) : as.foldlM f b ≠ .error e := by
  induction as generalizing b with
  | nil => nofun
  | cons a as ih =>
    rw [List.foldlM_cons]
    exact bind_ne_error (each b a) ih

namespace Ledger

/-- Sends requests, then records the acknowledgment of a batch and remembers the operation. -/
def settle (l : Ledger) (operation g : UInt64) (path : Path) (b : Batch)
    (requests : List Request) : Decision :=
  match l.commitEach g path b.offsets with
  | (.ok (), l') => ⟨requests, .ok (), l'.withCursor operation⟩
  | (.error e, l') => ⟨requests, .error e, l'⟩

/-- What a pop decides. -/
def popDecision (operation : UInt64) (p : Pop) (l : Ledger) (r : Rows) :
    Except Failure Decision := do
  l.checkTurn operation p.queue
  p.check
  if p.endMark then
    l.checkWindow p.group p.kind.path p.batch
    .ok ((l.deliver p.group p.kind.path p.offset).settle operation p.group p.kind.path p.batch [])
  else
    l.unlocked r (.ofPop operation p)
    .ok ⟨(CheckPoint.ofPop operation p).puts l.config, .ok (),
      (l.deliver p.group p.kind.path p.offset).withCursor operation⟩

/-- What an acknowledgment decides. -/
def ackDecision (operation : UInt64) (a : Ack) (l : Ledger) (r : Rows) :
    Except Failure Decision := do
  l.checkTurn operation a.queue
  let c ← l.found r a.target
  match settlingPath c.kind a.kind with
  | none => .ok ⟨c.deletes l.config, .ok (), l.withCursor operation⟩
  | some path =>
    l.checkWindow c.group path c.batch
    .ok (l.settle operation c.group path c.batch (c.deletes l.config))

/-- What a renewal decides. -/
def renewDecision (operation : UInt64) (w : Renewal) (l : Ledger) (r : Rows) :
    Except Failure Decision := do
  l.checkTurn operation w.queue
  let c ← l.found r w.target
  .ok ⟨c.moves l.config w.nextVisible, .ok (), l.withCursor operation⟩

/-- What the replay of an operation decides. -/
def replayDecision (operation : UInt64) : Operation → Ledger → Rows → Except Failure Decision
  | .pop p => popDecision operation p
  | .ack a => ackDecision operation a
  | .renewal w => renewDecision operation w

/-- What loading a snapshot decides. -/
def loadDecision (s : Snapshot) (l : Ledger) (r : Rows) : Except Failure Decision := do
  let groups ← restoreGroups l.config s.groups
  checkOwn l.queue s.checkPoints
  let existing ← l.scanned r
  .ok ⟨Act.replacement l.config (outdated existing s.checkPoints) s.checkPoints, .ok (),
    { l with groups := groups, cursor := s.cursor }⟩

/-- What clearing decides. -/
def clearDecision (l : Ledger) (r : Rows) : Except Failure Decision := do
  let existing ← l.scanned r
  .ok ⟨Act.replacement l.config existing [], .ok (), .empty l.queue l.config⟩

variable {l : Ledger} {r : Rows} {operation : UInt64} {d : Decision}

theorem popDecision_eq_ok {p : Pop} (decided : popDecision operation p l r = .ok d) :
    l.checkTurn operation p.queue = .ok () ∧ p.check = .ok () ∧
      ((p.endMark = true ∧ l.checkWindow p.group p.kind.path p.batch = .ok () ∧
          d = (l.deliver p.group p.kind.path p.offset).settle operation p.group p.kind.path
            p.batch []) ∨
        (p.endMark = false ∧ l.unlocked r (.ofPop operation p) = .ok () ∧
          d = ⟨(CheckPoint.ofPop operation p).puts l.config, .ok (),
            (l.deliver p.group p.kind.path p.offset).withCursor operation⟩)) := by
  unfold popDecision at decided
  obtain ⟨⟨⟩, turn, decided⟩ := bind_eq_ok.1 decided
  obtain ⟨⟨⟩, valid, decided⟩ := bind_eq_ok.1 decided
  refine ⟨turn, valid, ?_⟩
  cases mark : p.endMark with
  | true =>
    rw [mark, if_pos rfl] at decided
    obtain ⟨⟨⟩, checked, decided⟩ := bind_eq_ok.1 decided
    cases decided
    exact Or.inl ⟨rfl, checked, rfl⟩
  | false =>
    rw [mark, if_neg Bool.false_ne_true] at decided
    obtain ⟨⟨⟩, unlocked, decided⟩ := bind_eq_ok.1 decided
    cases decided
    exact Or.inr ⟨rfl, unlocked, rfl⟩

theorem ackDecision_eq_ok {a : Ack} (decided : ackDecision operation a l r = .ok d) :
    l.checkTurn operation a.queue = .ok () ∧ ∃ c, l.found r a.target = .ok c ∧
      ((settlingPath c.kind a.kind = none ∧
          d = ⟨c.deletes l.config, .ok (), l.withCursor operation⟩) ∨
        ∃ path, settlingPath c.kind a.kind = some path ∧
          l.checkWindow c.group path c.batch = .ok () ∧
          d = l.settle operation c.group path c.batch (c.deletes l.config)) := by
  unfold ackDecision at decided
  obtain ⟨⟨⟩, turn, decided⟩ := bind_eq_ok.1 decided
  obtain ⟨c, found, decided⟩ := bind_eq_ok.1 decided
  refine ⟨turn, c, found, ?_⟩
  cases settles : settlingPath c.kind a.kind with
  | none =>
    rw [settles] at decided
    cases decided
    exact Or.inl ⟨rfl, rfl⟩
  | some path =>
    rw [settles] at decided
    obtain ⟨⟨⟩, checked, decided⟩ := bind_eq_ok.1 decided
    cases decided
    exact Or.inr ⟨path, rfl, checked, rfl⟩

theorem renewDecision_eq_ok {w : Renewal} (decided : renewDecision operation w l r = .ok d) :
    l.checkTurn operation w.queue = .ok () ∧ ∃ c, l.found r w.target = .ok c ∧
      d = ⟨c.moves l.config w.nextVisible, .ok (), l.withCursor operation⟩ := by
  unfold renewDecision at decided
  obtain ⟨⟨⟩, turn, decided⟩ := bind_eq_ok.1 decided
  obtain ⟨c, found, decided⟩ := bind_eq_ok.1 decided
  cases decided
  exact ⟨turn, c, found, rfl⟩

theorem loadDecision_eq_ok {s : Snapshot} (decided : loadDecision s l r = .ok d) :
    ∃ groups existing, restoreGroups l.config s.groups = .ok groups ∧
      checkOwn l.queue s.checkPoints = .ok () ∧ l.scanned r = .ok existing ∧
      d = ⟨Act.replacement l.config (outdated existing s.checkPoints) s.checkPoints, .ok (),
        { l with groups := groups, cursor := s.cursor }⟩ := by
  unfold loadDecision at decided
  obtain ⟨groups, restored, decided⟩ := bind_eq_ok.1 decided
  obtain ⟨⟨⟩, own, decided⟩ := bind_eq_ok.1 decided
  obtain ⟨existing, scanned, decided⟩ := bind_eq_ok.1 decided
  cases decided
  exact ⟨groups, existing, restored, own, scanned, rfl⟩

theorem clearDecision_eq_ok (decided : clearDecision l r = .ok d) :
    ∃ existing, l.scanned r = .ok existing ∧
      d = ⟨Act.replacement l.config existing [], .ok (), .empty l.queue l.config⟩ := by
  unfold clearDecision at decided
  obtain ⟨existing, scanned, decided⟩ := bind_eq_ok.1 decided
  cases decided
  exact ⟨existing, scanned, rfl⟩

end Ledger

namespace Act

theorem popEndMark_does (operation : UInt64) (p : Pop) :
    Does (popEndMark p >>= fun _ => change (·.withCursor operation)) fun l _ =>
      l.checkWindow p.group p.kind.path p.batch >>= fun _ => .ok
        ((l.deliver p.group p.kind.path p.offset).settle operation p.group p.kind.path
          p.batch []) := by
  have tail := ((updates_change (·.deliver p.group p.kind.path p.offset)).bind
    (commitAll_updates p.group p.kind.path p.batch)).bind (updates_change (·.withCursor operation))
  have body : Does
      ((change (·.deliver p.group p.kind.path p.offset) >>= fun _ =>
        commitAll p.group p.kind.path p.batch) >>= fun _ => change (·.withCursor operation))
      fun l _ => .ok
        ((l.deliver p.group p.kind.path p.offset).settle operation p.group p.kind.path
          p.batch []) := by
    refine (tail.submit []).congr fun l _ => ?_
    unfold Ledger.settle
    dsimp only
    rcases (l.deliver p.group p.kind.path p.offset).commitEach p.group p.kind.path p.batch.offsets
      with ⟨e | _, l'⟩ <;> rfl
  unfold popEndMark
  rw [bind_assoc]
  exact (checkWindow_reads p.group p.kind.path p.batch).does fun _ => body

theorem popInFlight_does (operation : UInt64) (p : Pop) :
    Does (popInFlight operation p >>= fun _ => change (·.withCursor operation)) fun l r =>
      l.unlocked r (.ofPop operation p) >>= fun _ => .ok
        ⟨(CheckPoint.ofPop operation p).puts l.config, .ok (),
          (l.deliver p.group p.kind.path p.offset).withCursor operation⟩ := by
  have tail := (updates_change (·.deliver p.group p.kind.path p.offset)).bind
    (updates_change (·.withCursor operation))
  unfold popInFlight
  simp only [bind_assoc]
  refine (ledger_does fun l => (checkUnlocked_reads (.ofPop operation p)).does fun _ =>
    tail.submit ((CheckPoint.ofPop operation p).puts l.config)).congr fun l r => ?_
  rfl

theorem pop_does (operation : UInt64) (p : Pop) :
    Does (pop operation p) (Ledger.popDecision operation p) := by
  unfold pop Ledger.popDecision
  refine (checkTurn_reads operation p.queue).does fun _ => (reads_ofExcept p.check).does fun _ =>
    (reads_tell _).skip ?_
  cases p.endMark with
  | true => exact popEndMark_does operation p
  | false => exact popInFlight_does operation p

theorem ack_does (operation : UInt64) (a : Ack) :
    Does (ack operation a) (Ledger.ackDecision operation a) := by
  unfold ack Ledger.ackDecision
  refine (checkTurn_reads operation a.queue).does fun _ => (reads_tell _).skip ?_
  refine (ledger_does fun l => (find_reads a.target).does (d := fun c l' _ =>
    match settlingPath c.kind a.kind with
    | none => .ok ⟨c.deletes l.config, .ok (), l'.withCursor operation⟩
    | some path => l'.checkWindow c.group path c.batch >>= fun _ =>
      .ok (l'.settle operation c.group path c.batch (c.deletes l.config))) fun c => ?_).congr
    fun _ _ => rfl
  cases settlingPath c.kind a.kind with
  | none =>
    exact (updates_change (·.withCursor operation)).submit (c.deletes l.config)
  | some path =>
    refine (checkWindow_reads c.group path c.batch).does fun _ => ?_
    refine (((commitAll_updates c.group path c.batch).bind
      (updates_change (·.withCursor operation))).submit (c.deletes l.config)).congr fun l' _ => ?_
    unfold Ledger.settle
    rcases l'.commitEach c.group path c.batch.offsets with ⟨e | _, l''⟩ <;> rfl

theorem renew_does (operation : UInt64) (w : Renewal) :
    Does (renew operation w) (Ledger.renewDecision operation w) := by
  unfold renew Ledger.renewDecision
  refine (checkTurn_reads operation w.queue).does fun _ => (reads_tell _).skip ?_
  exact (ledger_does fun l => (find_reads w.target).does fun c =>
    (updates_change (·.withCursor operation)).submit (c.moves l.config w.nextVisible)).congr
    fun _ _ => rfl

/-- A replay carries out the decision of its operation. -/
theorem replay_does (operation : UInt64) (o : Operation) :
    Does (replay operation o) (Ledger.replayDecision operation o) := by
  refine Does.observed ?_ o.kind operation
  cases o with
  | pop p => exact pop_does operation p
  | ack a => exact ack_does operation a
  | renewal w => exact renew_does operation w

/-- Loading a snapshot carries out its decision. -/
theorem loadSnapshot_does (snapshot : Snapshot) :
    Does (loadSnapshot snapshot) (Ledger.loadDecision snapshot) := by
  unfold loadSnapshot Ledger.loadDecision
  refine (ledger_does (d := fun l l' r => do
    let groups ← Ledger.restoreGroups l.config snapshot.groups
    Ledger.checkOwn l.queue snapshot.checkPoints
    let existing ← l'.scanned r
    .ok ⟨replacement l.config (Ledger.outdated existing snapshot.checkPoints) snapshot.checkPoints,
      .ok (), { l' with groups := groups, cursor := snapshot.cursor }⟩) fun l => ?_).congr
    fun _ _ => rfl
  refine Does.within ?_ _
  refine (reads_count _).skip ((reads_ofExcept _).does fun groups => (reads_ofExcept _).does
    fun _ => scan_reads.does fun existing => ?_)
  have tail :=
    ((updates_change fun l' => { l' with groups := groups, cursor := snapshot.cursor }).bind
    (updates_tell (.loadedSnapshot groups.size snapshot.checkPoints.length))).submit
      (replacement l.config (Ledger.outdated existing snapshot.checkPoints) snapshot.checkPoints)
  dsimp only
  split
  · exact tail
  · exact (reads_tell _).skip tail

/-- Clearing carries out its decision. -/
theorem clear_does : Does clear Ledger.clearDecision := by
  unfold clear Ledger.clearDecision
  refine (ledger_does (d := fun l l' r => do
    let existing ← l'.scanned r
    .ok ⟨replacement l.config existing [], .ok (), .empty l'.queue l'.config⟩) fun l => ?_).congr
    fun _ _ => rfl
  refine Does.within ?_ _
  refine (reads_count _).skip (scan_reads.does fun existing => ?_)
  exact ((updates_change fun l' => .empty l'.queue l'.config).bind
    (updates_tell (.cleared existing.length))).submit (replacement l.config existing [])

/-- From `s` to `s'` a view of the store is pinned, and nothing else changes. -/
structure Pins (s s' : Site) : Prop where
  ledger : s'.ledger = s.ledger
  store : s'.host.store = s.host.store.pin
  batches : s'.host.batches = s.host.batches
  refuses : s'.host.outages.refuses = s.host.outages.refuses

theorem pin_cases (s : Site) :
    (Site.Quiet s (onHost Host.pin s).2 ∧ ¬ s.host.Answers ∧
      ∃ fault, (onHost Host.pin s).1 = .error (.store fault)) ∨
    (Pins s (onHost Host.pin s).2 ∧ (onHost Host.pin s).1 = .ok s.host.store.nextVersion) := by
  cases hr : s.host.outages.refusesNext .takeSnapshot with
  | true =>
    rw [onHost, Host.pin, Host.attempt_refused hr]
    refine Or.inl ⟨⟨rfl, ⟨rfl, rfl, rfl⟩⟩, fun all => ?_, _, rfl⟩
    rw [Outages.refusesNext, all] at hr
    cases hr
  | false =>
    rw [onHost, Host.pin, Host.attempt_answered hr]
    exact Or.inr ⟨⟨rfl, rfl, rfl, rfl⟩, rfl⟩

/-- Taking a snapshot fails and changes nothing, or it pins a view of the store and gives the
cursor, the images of the groups and the check points that it read. -/
theorem takeSnapshot_cases (s : Site) :
    (∃ e, (takeSnapshot s).1 = .error e ∧ Site.Quiet s (takeSnapshot s).2 ∧
      (s.ledger.scanned s.rows = .error e ∨ ¬ s.host.Answers ∧ ∃ fault, e = .store fault)) ∨
    ∃ checkPoints, s.ledger.scanned s.rows = .ok checkPoints ∧
      (takeSnapshot s).1 =
        .ok ⟨s.ledger.cursor, s.host.store.nextVersion, s.ledger.images, checkPoints⟩ ∧
      Pins s (takeSnapshot s).2 := by
  have looks : Reads (count (·.countAdmin .snapshot) >>= fun _ => scan) fun l r => l.scanned r :=
    ((reads_count _).bind fun _ => scan_reads).congr fun _ _ => rfl
  let inner : Site := { s with host := s.host.inScope (some (.takeSnapshot s.ledger.queue)) }
  obtain ⟨quiet, yield⟩ := looks inner
  have run : takeSnapshot s = within (.takeSnapshot s.ledger.queue)
      ((count (·.countAdmin .snapshot) >>= fun _ => scan) >>= fun checkPoints =>
        onHost Host.pin >>= fun version =>
          tell (.tookSnapshot s.ledger.cursor version s.ledger.images.length checkPoints.length) >>=
            fun _ => pure ⟨s.ledger.cursor, version, s.ledger.images, checkPoints⟩) s := by
    rw [takeSnapshot, bind_run, ledger_run]
    simp only [bind_assoc]
  rw [run, within, bind_run]
  rcases hmid : (count (·.countAdmin .snapshot) >>= fun _ => scan) inner with ⟨e | checkPoints, s₁⟩
  · rw [hmid] at quiet yield
    refine Or.inl ⟨e, rfl, ⟨quiet.ledger, ⟨quiet.host.store, quiet.host.batches,
      quiet.host.refuses⟩⟩, ?_⟩
    rcases yield with eq | ⟨refuses, fault, eq⟩
    · exact Or.inl eq.symm
    · cases eq
      exact Or.inr ⟨refuses, fault, rfl⟩
  · rw [hmid] at quiet yield
    have found : s.ledger.scanned s.rows = .ok checkPoints := by
      rcases yield with eq | ⟨-, fault, eq⟩
      · exact eq.symm
      · cases eq
    dsimp only
    rw [bind_run]
    have pinned := pin_cases s₁
    rcases hpin : onHost Host.pin s₁ with ⟨e | version, s₂⟩
    · rw [hpin] at pinned
      rcases pinned with ⟨quiet', refuses, fault, eq⟩ | ⟨-, eq⟩
      · cases eq
        refine Or.inl ⟨_, rfl, ⟨quiet'.ledger.trans quiet.ledger, ⟨?_, ?_, ?_⟩⟩,
          Or.inr ⟨mt quiet.host.answers.2 refuses, fault, rfl⟩⟩
        · exact quiet'.host.store.trans quiet.host.store
        · exact quiet'.host.batches.trans quiet.host.batches
        · exact quiet'.host.refuses.trans quiet.host.refuses
      · cases eq
    · rw [hpin] at pinned
      rcases pinned with ⟨-, -, fault, eq⟩ | ⟨pins, eq⟩
      · cases eq
      · cases eq
        have view : s₁.host.store = s.host.store := quiet.host.store
        refine Or.inr ⟨checkPoints, found, ?_, pins.ledger.trans quiet.ledger, ?_, ?_, ?_⟩
        · rw [view]; rfl
        · exact pins.store.trans (by rw [view])
        · exact pins.batches.trans quiet.host.batches
        · exact pins.refuses.trans quiet.host.refuses

end Act

end QueueLedger
