import QueueLedger.Proofs.Coherence
/-!
# Calls in lockstep

A queue cannot tell two stores apart that hold the same rows of it and refuse the same calls from
now on. Whatever it is asked, with the same ledger the answers are the same, the failures
included, and so is all that it can see afterwards (`Command.lockstep`).

## Proof shape

A store may refuse calls, so the decision of a call (`Command.decision`) does not settle its
answer: that hangs on which of its calls on the store are refused. Two runs of an action are
therefore followed side by side (`Act.Lockstep`), with one rule for each way of building actions.
The versions of views are the one thing in which the runs may differ, so the rules are about
related results, and not about equal ones.
-/

namespace QueueLedger

/-! ### Schedules -/

/-- From now on two schedules refuse the same calls. -/
def Outages.Concur (o o' : Outages) : Prop :=
  ∀ c n, o'.refuses c (o'.made.of c + n) = o.refuses c (o.made.of c + n)

namespace Outages

variable {o o' : Outages}

theorem Concur.of_answers {h h' : Host} (answers : h.Answers) (answers' : h'.Answers) :
    h.outages.Concur h'.outages :=
  fun c _ => (answers' c _).trans (answers c _).symm

theorem Concur.refusesNext (h : o.Concur o') (c : Call) : o'.refusesNext c = o.refusesNext c :=
  h c 0

theorem Concur.count (h : o.Concur o') (c : Call) : (o.count c).Concur (o'.count c) := by
  intro d n
  simp only [Outages.count, CallCounts.of_add]
  split
  · rw [Nat.add_assoc, Nat.add_assoc]
    exact h d (1 + n)
  · exact h d n

end Outages

/-! ### Rows -/

/-- Two stores hold the same rows of a queue. -/
def Rows.Agree (tables : Config) (q : QueueId) (r r' : Rows) : Prop :=
  ∀ a, Owned tables q a → r.get a.space a.key = r'.get a.space a.key

namespace Rows

variable {tables : Config} {q : QueueId} {r r' : Rows}

theorem Agree.apply (h : Agree tables q r r') (requests : List Request) :
    Agree tables q (r.apply requests) (r'.apply requests) := by
  induction requests generalizing r r' with
  | nil => exact h
  | cons request requests ih =>
    rw [apply_cons, apply_cons]
    refine ih fun a owned => ?_
    rw [get_request, get_request]
    split
    · rfl
    · exact h a owned

end Rows

/-! ### Sites that a queue cannot tell apart -/

/-- Two sites of a queue with the same ledger and the same rows of the queue, where the same calls
are refused from now on. -/
structure Site.Twin (tables : Config) (q : QueueId) (s s' : Site) : Prop where
  queue : s.ledger.queue = q
  config : s.ledger.config = tables
  ledger : s'.ledger = s.ledger
  rows : Rows.Agree tables q s.rows s'.rows
  outages : s.host.outages.Concur s'.host.outages

/-- Both answers are the same failure, or both are results that are related. -/
inductive Matched {α β : Type} (R : α → β → Prop) : Except Failure α → Except Failure β → Prop
  | ok {a : α} {b : β} (related : R a b) : Matched R (.ok a) (.ok b)
  | error (e : Failure) : Matched R (.error e) (.error e)

theorem Matched.map {α β γ δ : Type} {R : α → β → Prop} {R' : γ → δ → Prop} {f : α → γ} {g : β → δ}
    {r : Except Failure α} {r' : Except Failure β} (h : Matched R r r')
    (related : ∀ a b, R a b → R' (f a) (g b)) : Matched R' (r.map f) (r'.map g) := by
  cases h with
  | ok ab => exact .ok (related _ _ ab)
  | error e => exact .error e

theorem Matched.eq {α : Type} {r r' : Except Failure α} (h : Matched Eq r r') : r' = r := by
  cases h with
  | ok same => rw [same]
  | error e => rfl

/-- Results that are related by what a function makes of them. -/
theorem Matched.map_eq {α β : Type} {f : α → β} {r r' : Except Failure α}
    (h : Matched (fun a b => f b = f a) r r') : r'.map f = r.map f := by
  cases h with
  | ok same => exact congrArg Except.ok same
  | error e => rfl

/-- The snapshot, but for the version of the view that was pinned. -/
def Snapshot.unversioned (s : Snapshot) : Snapshot := { s with storeVersion := 0 }

namespace Act

variable {α β γ δ : Type} {tables : Config} {q : QueueId}

/-- Two actions give matching answers on twins, and leave twins behind. -/
def Lockstep (tables : Config) (q : QueueId) (R : α → β → Prop) (x : Act α) (y : Act β) : Prop :=
  ∀ s s', Site.Twin tables q s s' →
    Matched R (x s).1 (y s').1 ∧ Site.Twin tables q (x s).2 (y s').2

variable {R : α → β → Prop} {R' : γ → δ → Prop} {x : Act α} {y : Act β}

/-! ### Rules -/

theorem lockstep_pure {a : α} {b : β} (related : R a b) : Lockstep tables q R (pure a) (pure b) :=
  fun _ _ twin => ⟨.ok related, twin⟩

theorem lockstep_ofExcept (r : Except Failure α) :
    Lockstep tables q Eq (ofExcept r) (ofExcept r) := by
  intro s s' twin
  refine ⟨?_, twin⟩
  cases r with
  | ok a => exact .ok rfl
  | error e => exact .error e

/-- One action after the other. The second ones start with results that are related. -/
theorem Lockstep.bind {f : α → Act γ} {g : β → Act δ} (h : Lockstep tables q R x y)
    (next : ∀ a b, R a b → Lockstep tables q R' (f a) (g b)) :
    Lockstep tables q R' (x >>= f) (y >>= g) := by
  intro s s' twin
  obtain ⟨answer, twin'⟩ := h s s' twin
  rw [bind_run, bind_run]
  rcases hx : x s with ⟨r, s₁⟩
  rcases hy : y s' with ⟨r', s₁'⟩
  rw [hx, hy] at answer twin'
  cases answer with
  | ok related => exact next _ _ related s₁ s₁' twin'
  | error e => exact ⟨.error e, twin'⟩

/-- The second ones start with the same result. -/
theorem Lockstep.seq {x : Act α} {f : α → Act γ} {g : α → Act δ} (h : Lockstep tables q Eq x x)
    (next : ∀ a, Lockstep tables q R' (f a) (g a)) : Lockstep tables q R' (x >>= f) (x >>= g) := by
  refine h.bind fun a b same => ?_
  subst same
  exact next a

theorem Lockstep.map {f : α → γ} {g : β → δ} (h : Lockstep tables q R x y)
    (related : ∀ a b, R a b → R' (f a) (g b)) : Lockstep tables q R' (f <$> x) (g <$> y) := by
  intro s s' twin
  obtain ⟨answer, twin'⟩ := h s s' twin
  rw [map_run, map_run]
  exact ⟨answer.map related, twin'⟩

theorem lockstep_forM {f : γ → Act Unit} {cs : List γ}
    (each : ∀ c ∈ cs, Lockstep tables q Eq (f c) (f c)) :
    Lockstep tables q Eq (cs.forM f) (cs.forM f) := by
  induction cs with
  | nil => exact lockstep_pure rfl
  | cons c cs ih =>
    refine (each c List.mem_cons_self).seq fun _ => ih fun c' hc' => ?_
    exact each c' (List.mem_cons_of_mem c hc')

/-- A look at the ledger. -/
theorem lockstep_ledger {f : Ledger → Act α} {g : Ledger → Act β}
    (next : ∀ l, l.queue = q → l.config = tables → Lockstep tables q R (f l) (g l)) :
    Lockstep tables q R (ledger >>= f) (ledger >>= g) := by
  intro s s' twin
  have run := next s.ledger twin.queue twin.config s s' twin
  rw [bind_run, bind_run, ledger_run, ledger_run]
  dsimp only
  rwa [twin.ledger]

/-- A check that looks at the ledger only. -/
theorem lockstep_check (f : Ledger → Except Failure α) :
    Lockstep tables q Eq (ledger >>= fun l => ofExcept (f l))
      (ledger >>= fun l => ofExcept (f l)) :=
  lockstep_ledger fun l _ _ => lockstep_ofExcept (f l)

theorem lockstep_change {f : Ledger → Ledger}
    (stays : ∀ l, (f l).queue = l.queue ∧ (f l).config = l.config) :
    Lockstep tables q Eq (change f) (change f) := by
  intro s s' twin
  obtain ⟨queue, config⟩ := stays s.ledger
  exact ⟨.ok rfl, queue.trans twin.queue, config.trans twin.config, congrArg f twin.ledger,
    twin.rows, twin.outages⟩

theorem lockstep_tell (n n' : Notice) : Lockstep tables q Eq (tell n) (tell n') :=
  fun _ _ twin => ⟨.ok rfl, twin.queue, twin.config, twin.ledger, twin.rows, twin.outages⟩

theorem lockstep_count (f : Tally → Tally) : Lockstep tables q Eq (count f) (count f) :=
  fun _ _ twin => ⟨.ok rfl, twin.queue, twin.config, twin.ledger, twin.rows, twin.outages⟩

/-- The scope of an action does not matter. -/
theorem Lockstep.within (h : Lockstep tables q R x y) (scope : Scope) :
    Lockstep tables q R (within scope x) (within scope y) := by
  intro s s' twin
  obtain ⟨answer, twin'⟩ := h { s with host := s.host.inScope (some scope) }
    { s' with host := s'.host.inScope (some scope) }
    ⟨twin.queue, twin.config, twin.ledger, twin.rows, twin.outages⟩
  exact ⟨answer, twin'.queue, twin'.config, twin'.ledger, twin'.rows, twin'.outages⟩

/-- Nor does it matter that a replay is counted and reported. -/
theorem Lockstep.observed {x : Act Unit} (h : Lockstep tables q Eq x x) (kind : OperationKind)
    (operation : UInt64) :
    Lockstep tables q Eq (observed kind operation x) (observed kind operation x) := by
  intro s s' twin
  obtain ⟨answer, twin'⟩ := h s s' twin
  unfold Act.observed
  rcases hx : x s with ⟨r, s₁⟩
  rcases hy : x s' with ⟨r', s₁'⟩
  rw [hx, hy] at answer twin'
  cases answer with
  | ok => exact ⟨.ok rfl, twin'.queue, twin'.config, twin'.ledger, twin'.rows, twin'.outages⟩
  | error e => exact ⟨.error e, twin'.queue, twin'.config, twin'.ledger, twin'.rows, twin'.outages⟩

/-! ### Calls on the store -/

/-- A call on the store is refused on both sides or answered on both. All that is asked of the
answers is that rows of the queue that agree lead to results that are related, and still agree. -/
theorem lockstep_attempt (c : Call) {answer : Host → α × Host} {answer' : Host → β × Host}
    (same : ∀ h h', Rows.Agree tables q h.store.rows h'.store.rows →
      R (answer h).1 (answer' h').1 ∧
        Rows.Agree tables q (answer h).2.store.rows (answer' h').2.store.rows)
    (outages : ∀ h, (answer h).2.outages = h.outages)
    (outages' : ∀ h, (answer' h).2.outages = h.outages) :
    Lockstep tables q R (onHost (Host.attempt c answer)) (onHost (Host.attempt c answer')) := by
  intro s s' twin
  have counted := twin.outages.count c
  cases refused : s.host.outages.refusesNext c with
  | true =>
    have refused' : s'.host.outages.refusesNext c = true := by
      rw [twin.outages.refusesNext, refused]
    rw [onHost, onHost, Host.attempt_refused refused, Host.attempt_refused refused']
    exact ⟨.error _, twin.queue, twin.config, twin.ledger, twin.rows, counted⟩
  | false =>
    have answered' : s'.host.outages.refusesNext c = false := by
      rw [twin.outages.refusesNext, refused]
    rw [onHost, onHost, Host.attempt_answered refused, Host.attempt_answered answered']
    obtain ⟨related, agree⟩ := same { s.host with outages := s.host.outages.count c }
      { s'.host with outages := s'.host.outages.count c } twin.rows
    refine ⟨.ok related, twin.queue, twin.config, twin.ledger, agree, ?_⟩
    rw [outages, outages']
    exact counted

/-- Reading a row of the queue. -/
theorem lockstep_get {space : String} {key : Bytes} (owned : Owned tables q ⟨space, key⟩) :
    Lockstep tables q Eq (onHost (Host.get space key)) (onHost (Host.get space key)) :=
  lockstep_attempt .get (fun _ _ agree => ⟨agree _ owned, agree⟩) (fun _ => rfl) fun _ => rfl

/-- Applying a batch, whosever rows it is about. -/
theorem lockstep_submit (requests : List Request) :
    Lockstep tables q Eq (submit requests) (submit requests) := by
  unfold submit
  split
  · exact lockstep_pure rfl
  · exact lockstep_attempt .batch (fun _ _ agree => ⟨rfl, agree.apply requests⟩) (fun _ => rfl)
      fun _ => rfl

/-- Pinning a view. The versions may differ. -/
theorem lockstep_pin : Lockstep tables q (fun _ _ => True) (onHost Host.pin) (onHost Host.pin) :=
  lockstep_attempt .takeSnapshot (fun _ _ agree => ⟨trivial, agree⟩) (fun _ => rfl) fun _ => rfl

/-- Letting go of a view. It may be held on one side only. -/
theorem lockstep_unpin (version : UInt64) :
    Lockstep tables q (fun _ _ => True) (onHost (Host.release version))
      (onHost (Host.release version)) :=
  lockstep_attempt .releaseSnapshot (fun _ _ agree => ⟨trivial, agree⟩) (fun _ => rfl) fun _ => rfl

theorem lockstep_checkPointRows : Lockstep tables q Eq checkPointRows checkPointRows := by
  refine lockstep_ledger fun l own config => Lockstep.seq ?_ fun _ => lockstep_pure rfl
  refine lockstep_attempt .iterate (fun h h' agree => ⟨?_, agree⟩) (fun _ => rfl) fun _ => rfl
  subst own config
  show walk _ _ _ = walk _ _ _
  rw [Rows.select_congr fun key stem => agree ⟨l.config.checkPoints, key⟩ (Or.inl ⟨rfl, ?_⟩)]
  rwa [Range.holds_under] at stem

theorem lockstep_scan : Lockstep tables q Eq scan scan :=
  lockstep_checkPointRows.seq fun _ => lockstep_ofExcept _

theorem lockstep_find (operation : UInt64) :
    Lockstep tables q Eq (find operation) (find operation) := by
  refine lockstep_ledger fun l own config => Lockstep.seq (lockstep_get ?_) fun row => ?_
  · subst own config
    exact Or.inl ⟨rfl, CheckPoint.scope_isPrefixOf_keyOf l.queue operation⟩
  · cases row with
    | none => exact lockstep_ofExcept _
    | some value => exact lockstep_ofExcept _

theorem lockstep_lockRow (group offset : UInt64) :
    Lockstep tables q Eq (lockRow group offset) (lockRow group offset) := by
  refine lockstep_ledger fun l own config => lockstep_get ?_
  subst own config
  exact Or.inr (Or.inr ⟨rfl, group, offset, rfl⟩)

/-- The locks of a delivery of the queue. -/
theorem lockstep_checkUnlocked {c : CheckPoint} (own : c.queue = q) :
    Lockstep tables q Eq (checkUnlocked c) (checkUnlocked c) := by
  rw [checkUnlocked_eq]
  refine lockstep_ledger fun l _ config => lockstep_forM fun key mem => ?_
  obtain ⟨-, o, -, rfl⟩ := CheckPoint.mem_lockKeys.1 mem
  refine Lockstep.seq (lockstep_get ?_) fun row => ?_
  · subst own config
    exact Or.inr (Or.inr ⟨rfl, c.group, o, rfl⟩)
  · cases row with
    | none => exact lockstep_pure rfl
    | some value =>
      refine (lockstep_ofExcept _).seq fun owner => ?_
      split
      · exact lockstep_pure rfl
      · exact lockstep_ofExcept _

/-! ### Replays -/

theorem lockstep_commit (group : UInt64) (path : Path) (offset : UInt64) :
    Lockstep tables q Eq (commit group path offset) (commit group path offset) := by
  intro s s' twin
  unfold commit
  rw [twin.ledger]
  cases committed : s.ledger.commit group path offset with
  | error e => exact ⟨.error e, twin⟩
  | ok r =>
    obtain ⟨l, c⟩ := r
    have stays : l.queue = s.ledger.queue ∧ l.config = s.ledger.config := by
      unfold Ledger.commit at committed
      split at committed <;> cases committed
      exact ⟨rfl, rfl⟩
    dsimp only
    cases c.advanced with
    | none => exact ⟨.ok rfl, stays.1.trans twin.queue, stays.2.trans twin.config, rfl, twin.rows,
        twin.outages⟩
    | some mark => exact ⟨.ok rfl, stays.1.trans twin.queue, stays.2.trans twin.config, rfl,
        twin.rows, twin.outages⟩

theorem lockstep_commitAll (group : UInt64) (path : Path) (b : Batch) :
    Lockstep tables q Eq (commitAll group path b) (commitAll group path b) := by
  rw [commitAll, Batch.visit_eq]
  exact lockstep_forM fun offset _ => lockstep_commit group path offset

theorem lockstep_withCursor (operation : UInt64) :
    Lockstep tables q Eq (change (·.withCursor operation)) (change (·.withCursor operation)) :=
  lockstep_change fun _ => ⟨rfl, rfl⟩

/-- An operation that passes the check of its turn is one for the queue. -/
theorem lockstep_checkTurn (operation : UInt64) (queue : QueueId) :
    Lockstep tables q (fun _ _ => queue = q) (checkTurn operation queue)
      (checkTurn operation queue) := by
  refine lockstep_ledger fun l own _ => ?_
  intro s s' twin
  refine ⟨?_, twin⟩
  cases turn : l.checkTurn operation queue with
  | error e => exact .error e
  | ok u => exact .ok ((Ledger.checkTurn_eq_ok turn).1.trans own)

theorem lockstep_pop (operation : UInt64) (p : Pop) :
    Lockstep tables q Eq (pop operation p) (pop operation p) := by
  -- Only a pop for this queue comes as far as its locks, and so they are rows of the queue.
  refine (lockstep_checkTurn operation p.queue).bind fun _ _ own => ?_
  refine (lockstep_ofExcept _).seq fun _ => (lockstep_tell _ _).seq fun _ => ?_
  have deliver : Lockstep tables q Eq (change (·.deliver p.group p.kind.path p.offset))
      (change (·.deliver p.group p.kind.path p.offset)) := lockstep_change fun _ => ⟨rfl, rfl⟩
  have last : Lockstep tables q Eq (change (·.withCursor operation)) _ :=
    lockstep_withCursor operation
  cases p.endMark with
  | true =>
    refine Lockstep.seq ?_ fun _ => last
    exact (lockstep_check _).seq fun _ => deliver.seq fun _ => lockstep_commitAll _ _ _
  | false =>
    refine Lockstep.seq (lockstep_ledger fun l _ _ => ?_) fun _ => last
    exact (lockstep_checkUnlocked own).seq fun _ => (lockstep_submit _).seq fun _ => deliver

theorem lockstep_ack (operation : UInt64) (a : Ack) :
    Lockstep tables q Eq (ack operation a) (ack operation a) := by
  refine (lockstep_checkTurn operation a.queue).bind fun _ _ _ =>
    (lockstep_tell _ _).seq fun _ => ?_
  refine lockstep_ledger fun l _ _ => (lockstep_find a.target).seq fun c => ?_
  have last : Lockstep tables q Eq (change (·.withCursor operation)) _ :=
    lockstep_withCursor operation
  cases settlingPath c.kind a.kind with
  | none => exact (lockstep_submit _).seq fun _ => last
  | some path =>
    refine Lockstep.seq ?_ fun _ => (lockstep_submit _).seq fun _ => ?_
    · exact lockstep_check _
    · exact (lockstep_commitAll _ _ _).seq fun _ => last

theorem lockstep_renew (operation : UInt64) (w : Renewal) :
    Lockstep tables q Eq (renew operation w) (renew operation w) := by
  refine (lockstep_checkTurn operation w.queue).bind fun _ _ _ =>
    (lockstep_tell _ _).seq fun _ => ?_
  refine lockstep_ledger fun l _ _ => (lockstep_find w.target).seq fun c => ?_
  exact (lockstep_submit _).seq fun _ => lockstep_withCursor operation

theorem lockstep_replay (operation : UInt64) (o : Operation) :
    Lockstep tables q Eq (replay operation o) (replay operation o) := by
  refine Lockstep.observed ?_ o.kind operation
  cases o with
  | pop p => exact lockstep_pop operation p
  | ack a => exact lockstep_ack operation a
  | renewal w => exact lockstep_renew operation w

/-! ### Snapshots, recovery and clearing -/

/-- The snapshots may differ in the version of the view. -/
theorem lockstep_takeSnapshot :
    Lockstep tables q (fun s s' => s'.unversioned = s.unversioned) takeSnapshot takeSnapshot := by
  refine lockstep_ledger fun l _ _ => Lockstep.within ?_ _
  refine (lockstep_count _).seq fun _ => lockstep_scan.seq fun cs => ?_
  refine lockstep_pin.bind fun version version' _ => ?_
  exact (lockstep_tell _ _).bind fun _ _ _ => lockstep_pure rfl

/-- A batch, then the ledger, then a notice. -/
theorem lockstep_replace (requests : List Request) {f : Ledger → Ledger}
    (stays : ∀ l, (f l).queue = l.queue ∧ (f l).config = l.config) (n : Notice) :
    Lockstep tables q Eq (submit requests >>= fun _ => change f >>= fun _ => tell n)
      (submit requests >>= fun _ => change f >>= fun _ => tell n) :=
  (lockstep_submit requests).seq fun _ => (lockstep_change stays).seq fun _ => lockstep_tell n n

theorem lockstep_loadSnapshot (s : Snapshot) :
    Lockstep tables q Eq (loadSnapshot s) (loadSnapshot s) := by
  refine lockstep_ledger fun l _ _ => Lockstep.within ?_ _
  refine (lockstep_count _).seq fun _ => (lockstep_ofExcept _).seq fun groups => ?_
  refine (lockstep_ofExcept _).seq fun _ => lockstep_scan.seq fun existing => ?_
  dsimp only
  split
  · refine lockstep_replace _ (fun _ => ?_) _
    exact ⟨rfl, rfl⟩
  · refine (lockstep_tell _ _).seq fun _ => lockstep_replace _ (fun _ => ?_) _
    exact ⟨rfl, rfl⟩

theorem lockstep_clear : Lockstep tables q Eq clear clear := by
  refine lockstep_ledger fun l _ _ => Lockstep.within ?_ _
  refine (lockstep_count _).seq fun _ => lockstep_scan.seq fun existing => ?_
  refine lockstep_replace _ (fun _ => ?_) _
  exact ⟨rfl, rfl⟩

theorem lockstep_release (s : Snapshot) :
    Lockstep tables q (fun _ _ => True) (release s) (release s) := by
  refine lockstep_ledger fun l _ _ => (lockstep_unpin s.storeVersion).bind fun held held' _ => ?_
  exact (lockstep_tell _ _).bind fun _ _ _ => lockstep_pure trivial

/-! ### Looking at a queue -/

theorem lockstep_checkPointCount : Lockstep tables q Eq checkPointCount checkPointCount :=
  lockstep_checkPointRows.seq fun _ => lockstep_pure rfl

theorem lockstep_isLocked (group offset : UInt64) :
    Lockstep tables q Eq (isLocked group offset) (isLocked group offset) :=
  (lockstep_lockRow group offset).seq fun _ => lockstep_pure rfl

end Act

/-- **One call.** Twins give the same answer, but for the version of a view, and stay twins. -/
theorem Command.lockstep {tables : Config} {q : QueueId} (c : Command) : Act.Lockstep tables q
    (fun o o' => o'.map Snapshot.unversioned = o.map Snapshot.unversioned) c.act c.act := by
  cases c with
  | replay id o => exact (Act.lockstep_replay id o).map fun _ _ _ => rfl
  | takeSnapshot => exact Act.lockstep_takeSnapshot.map fun _ _ same => congrArg some same
  | load s => exact (Act.lockstep_loadSnapshot s).map fun _ _ _ => rfl
  | clear => exact Act.lockstep_clear.map fun _ _ _ => rfl
  | release s => exact (Act.lockstep_release s).map fun _ _ _ => rfl

end QueueLedger
