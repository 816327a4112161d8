import QueueLedger.Proofs.Anchoring
import QueueLedger.Proofs.Atomicity
/-!
# What a call counts and reports

Beside what it gives back, a call leaves traces for those who watch the host: it moves the counters,
and it tells the journal of errors. `Occurrence.notes` says what one call leaves there, whatever it
ends in.

## Proof shape

Almost every part of a call is `Act.Silent`: it counts nothing and tells no error. What is left are
the two frames around a call, which count it, and the commits in the middle of a replay, which count
how often they re-anchor. A replay comes to its commits only when nothing can fail any more, so it
either fails and records nothing, or records the whole batch of its `Settlement`
(`Act.apply_records`). Along the batch a watermark stays settled, and there the number of
re-anchorings is the number of commits that change the base (`Act.forM_commit`, by
`Watermark.Settled.rebases_eq`).
-/

namespace QueueLedger

/-! ### Counters and error events -/

namespace Host

/-- The log events of errors, in the order in which they were told. -/
def errors (h : Host) : List Log.Event :=
  (h.journal.toList.map Entry.event).filter fun e => e.level = .error

/-- From `h` to `h'` the counters change as `f` says, some error events are told, and the scope is
the same. -/
structure Notes (h : Host) (f : Tally → Tally) (told : List Log.Event) (h' : Host) : Prop where
  tally : h'.tally = f h.tally
  errors : h'.errors = h.errors ++ told
  scope : h'.scope = h.scope

/-- A change of nothing but the store. -/
theorem Notes.of_eq {h h' : Host} (tally : h'.tally = h.tally) (journal : h'.journal = h.journal)
    (scope : h'.scope = h.scope) : h.Notes id [] h' where
  tally := tally
  errors := by rw [Host.errors, journal, List.append_nil]; rfl
  scope := scope

theorem Notes.refl (h : Host) : h.Notes id [] h := .of_eq rfl rfl rfl

theorem Notes.trans {h₁ h₂ h₃ : Host} {f g : Tally → Tally} {told told' : List Log.Event}
    (a : h₁.Notes f told h₂) (b : h₂.Notes g told' h₃) :
    h₁.Notes (fun t => g (f t)) (told ++ told') h₃ where
  tally := by rw [b.tally, a.tally]
  errors := by rw [b.errors, a.errors, List.append_assoc]
  scope := b.scope.trans a.scope

theorem notes_tell (h : Host) (n : Notice) :
    h.Notes id (if n.level = .error then [Entry.event ⟨n, h.scope⟩] else []) (h.tell n) where
  tally := rfl
  errors := by
    have level : (Entry.event ⟨n, h.scope⟩).level = n.level := rfl
    rw [errors, tell, Array.toList_push, List.map_append, List.filter_append, List.map_cons,
      List.map_nil, List.filter_cons, List.filter_nil, level]
    simp only [decide_eq_true_eq]
    rfl
  scope := rfl

theorem notes_tell_of_ne (h : Host) (n : Notice) (quiet : decide (n.level = .error) = false) :
    h.Notes id [] (h.tell n) := by
  have told := h.notes_tell n
  rwa [if_neg (of_decide_eq_false quiet)] at told

theorem notes_count (h : Host) (f : Tally → Tally) : h.Notes f [] (h.count f) :=
  ⟨rfl, (List.append_nil _).symm, rfl⟩

/-- Whether a call on the store is refused or answered makes no difference. -/
theorem notes_attempt {α : Type} {answer : Host → α × Host}
    (silent : ∀ h : Host, h.Notes id [] (answer h).2) (c : Call) (h : Host) :
    h.Notes id [] (attempt c answer h).2 := by
  have asked : h.Notes id [] { h with outages := h.outages.count c } := .of_eq rfl rfl rfl
  cases hr : h.outages.refusesNext c with
  | true =>
    rw [attempt_refused hr]
    exact asked
  | false =>
    rw [attempt_answered hr]
    exact asked.trans (silent _)

theorem notes_pin (h : Host) : h.Notes id [] (pin h).2 := by
  refine notes_attempt (fun h => ?_) .takeSnapshot h
  have stored : h.Notes id [] { h with store := h.store.pin } := .of_eq rfl rfl rfl
  exact stored.trans (notes_tell_of_ne _ (.pinned h.store.nextVersion) rfl)

theorem notes_release (version : UInt64) (h : Host) : h.Notes id [] (release version h).2 := by
  refine notes_attempt (fun h => ?_) .releaseSnapshot h
  have stored : h.Notes id [] { h with store := h.store.release version } := .of_eq rfl rfl rfl
  exact stored.trans (notes_tell_of_ne _ (.unpinned version (h.store.holds version)
    (h.store.release version).retained) rfl)

end Host

namespace Act

variable {α β : Type}

/-- The action counts nothing and tells no error. -/
def Silent (x : Act α) : Prop := ∀ s : Site, s.host.Notes id [] (x s).2.host

theorem silent_pure (a : α) : Silent (pure a) := fun s => .refl s.host

theorem silent_ledger : Silent ledger := fun s => .refl s.host

theorem silent_ofExcept (r : Except Failure α) : Silent (ofExcept r) := fun s => .refl s.host

theorem silent_change (f : Ledger → Ledger) : Silent (change f) := fun s => .refl s.host

theorem silent_tell (n : Notice) (quiet : decide (n.level = .error) = false) : Silent (tell n) :=
  fun s => s.host.notes_tell_of_ne n quiet

theorem silent_onHost {x : Hosted α} (silent : ∀ h : Host, h.Notes id [] (x h).2) :
    Silent (onHost x) := by
  intro s
  have after := silent s.host
  unfold onHost
  rcases hx : x s.host with ⟨e | a, h⟩
  · rw [hx] at after
    exact after
  · rw [hx] at after
    exact after

theorem Silent.bind {x : Act α} {f : α → Act β} (hx : Silent x) (hf : ∀ a, Silent (f a)) :
    Silent (x >>= f) := by
  intro s
  have first := hx s
  rw [bind_run]
  rcases hxs : x s with ⟨e | a, s'⟩
  · rw [hxs] at first
    exact first
  · rw [hxs] at first
    exact first.trans (hf a s')

theorem Silent.forM {f : β → Act Unit} (hf : ∀ b, Silent (f b)) (bs : List β) :
    Silent (bs.forM f) := by
  induction bs with
  | nil => exact silent_pure ()
  | cons b bs ih => exact (hf b).bind fun _ => ih

theorem silent_get (space : String) (key : Bytes) : Silent (onHost (Host.get space key)) :=
  silent_onHost (Host.notes_attempt (fun h => .refl h) .get)

theorem silent_submit (requests : List Request) : Silent (submit requests) := by
  unfold submit
  split
  · exact silent_pure ()
  · exact silent_onHost (Host.notes_attempt (fun h => .of_eq rfl rfl rfl) .batch)

theorem silent_scan : Silent scan :=
  (silent_ledger.bind fun _ => (silent_onHost (Host.notes_attempt (fun h => .refl h) .iterate)).bind
    fun _ => silent_pure _).bind fun _ => silent_ofExcept _

theorem silent_find (operation : UInt64) : Silent (find operation) := by
  refine silent_ledger.bind fun l => (silent_get _ _).bind fun row => ?_
  cases row with
  | none => exact silent_ofExcept _
  | some value => exact silent_ofExcept _

theorem silent_checkTurn (operation : UInt64) (queue : QueueId) :
    Silent (checkTurn operation queue) :=
  silent_ledger.bind fun _ => silent_ofExcept _

theorem silent_checkWindow (group : UInt64) (path : Path) (b : Batch) :
    Silent (checkWindow group path b) :=
  silent_ledger.bind fun _ => silent_ofExcept _

theorem silent_checkUnlocked (c : CheckPoint) : Silent (checkUnlocked c) := by
  rw [checkUnlocked_eq]
  refine silent_ledger.bind fun l =>
    .forM (fun key => (silent_get _ _).bind fun row => ?_) c.lockKeys
  cases row with
  | none => exact silent_pure ()
  | some value =>
    refine (silent_ofExcept (OrderLock.owner value)).bind fun owner => ?_
    split
    · exact silent_pure ()
    · exact silent_ofExcept _

/-- The scope of an action is closed again, so it makes no difference to those who had none open. -/
theorem notes_within {x : Act α} {f : Tally → Tally} {told : List Log.Event} {s : Site}
    (idle : s.host.scope = none) (scope : Scope)
    (h : (s.host.inScope (some scope)).Notes f told
      (x { s with host := s.host.inScope (some scope) }).2.host) :
    s.host.Notes f told (within scope x s).2.host :=
  ⟨h.tally, h.errors, idle.symm⟩

theorem onHost_ledger (x : Hosted α) (s : Site) : (onHost x s).2.ledger = s.ledger := by
  unfold onHost
  rcases x s.host with ⟨e | a, h⟩ <;> rfl

theorem submit_ledger (requests : List Request) (s : Site) :
    (submit requests s).2.ledger = s.ledger := by
  unfold submit
  split
  · rfl
  · exact onHost_ledger _ s

end Act

/-! ### Commits -/

/-- How many of the attempts to commit some offsets, one after the other, change the base. -/
def Watermark.baseMoves (w : Watermark) : List UInt64 → Nat
  | [] => 0
  | o :: os => (if (w.attempt o).base = w.base then 0 else 1) + baseMoves (w.attempt o) os

/-- A batch that a replay records, and the group and the path for which it does. -/
structure Settlement where
  group : UInt64
  path : Path
  batch : Batch

/-- What an operation records if it is accepted: the batch of a pop with an end mark, and that of a
delivery that is acknowledged, unless it is an ordered one that expired. -/
def Operation.settlement? (l : Ledger) (r : Rows) : Operation → Option Settlement
  | pop p => if p.endMark then some ⟨p.group, p.kind.path, p.batch⟩ else none
  | ack a =>
    match l.found r a.target with
    | .ok c => (settlingPath c.kind a.kind).map fun path => ⟨c.group, path, c.batch⟩
    | .error _ => none
  | renewal _ => none

/-- The offsets that are committed for a group on a path. -/
def Settlement.commits (st : Option Settlement) (g : UInt64) (path : Path) : List UInt64 :=
  match st with
  | some st => if st.group = g ∧ st.path = path then st.batch.offsets else []
  | none => []

/-- How many of the commits change the base of their watermark. -/
def Ledger.baseMoves (l : Ledger) : Option Settlement → Nat
  | some st => ((l.group st.group).watermark st.path).baseMoves st.batch.offsets
  | none => 0

namespace Site

/-- From `s` to `s'` a batch is recorded, or none. It is counted how often a base changes, and
nothing else, and no error is told. -/
structure Settles (s : Site) (st : Option Settlement) (s' : Site) : Prop where
  notes : s.host.Notes (·.countRebases (s.ledger.baseMoves st)) [] s'.host
  marks : ∀ g path, (s'.ledger.group g).watermark path =
    ((s.ledger.group g).watermark path).attempts (Settlement.commits st g path)

variable {s s₁ s' : Site} {st : Option Settlement}

theorem settles_none (notes : s.host.Notes id [] s'.host)
    (marks : ∀ g path, (s'.ledger.group g).watermark path = (s.ledger.group g).watermark path) :
    s.Settles none s' :=
  ⟨⟨notes.tally, notes.errors, notes.scope⟩, marks⟩

theorem Settles.trans (h : s.Settles none s₁) (h' : s₁.Settles st s') : s.Settles st s' := by
  have moves : s₁.ledger.baseMoves st = s.ledger.baseMoves st := by
    cases st with
    | none => rfl
    | some st => exact congrArg (Watermark.baseMoves · _) (h.marks st.group st.path)
  have notes := h.notes.trans h'.notes
  rw [moves] at notes
  refine ⟨notes, fun g path => ?_⟩
  rw [h'.marks, h.marks]
  rfl

/-- What comes after a recorded batch. -/
theorem Settles.rest (h : s.Settles st s₁) (h' : s₁.Settles none s') : s.Settles st s' := by
  refine ⟨⟨?_, ?_, h'.notes.scope.trans h.notes.scope⟩, fun g path => ?_⟩
  · exact h'.notes.tally.trans h.notes.tally
  · rw [h'.notes.errors, h.notes.errors, List.append_nil, List.append_nil]
  · exact (h'.marks g path).trans (h.marks g path)

/-- A call fails and records nothing, or succeeds and records a batch or none. -/
def Records (s : Site) (st : Option Settlement) (r : Except Failure Unit × Site) : Prop :=
  (∃ e, r.1 = .error e ∧ s.Settles none r.2) ∨ (r.1 = .ok () ∧ s.Settles st r.2)

theorem Settles.records {r : Except Failure Unit × Site} (h : s.Settles none s₁)
    (h' : s₁.Records st r) : s.Records st r :=
  h'.imp (fun ⟨e, failed, settles⟩ => ⟨e, failed, h.trans settles⟩)
    fun ⟨answer, settles⟩ => ⟨answer, h.trans settles⟩

/-- What commits rely on: they work on the watermarks, which are settled, and the check points in
the rows end before the last offset. -/
structure Ready (s : Site) : Prop where
  sound : s.ledger.Sound
  settled : ∀ g path, ((s.ledger.group g).watermark path).Settled
  bounded : s.Bounded

theorem Ready.of_quiet (ready : s.Ready) (quiet : s.Quiet s') : s'.Ready where
  sound := by rw [quiet.ledger]; exact ready.sound
  settled := by rw [quiet.ledger]; exact ready.settled
  bounded := by rw [Bounded, quiet.rows, quiet.ledger]; exact ready.bounded

end Site

namespace Act

variable {α : Type} {s : Site} {st : Option Settlement}

theorem records_bind {x : Act α} {f : α → Act Unit} (first : s.Settles none (x s).2)
    (rest : ∀ a s₁, x s = (.ok a, s₁) → s₁.Records st (f a s₁)) : s.Records st ((x >>= f) s) := by
  rw [bind_run]
  rcases hx : x s with ⟨e | a, s₁⟩
  · rw [hx] at first
    exact Or.inl ⟨e, rfl, first⟩
  · rw [hx] at first
    exact first.records (rest a s₁ hx)

/-- Reading and checking comes before recording. -/
theorem Reads.records {x : Act α} {f : α → Act Unit} {v : Ledger → Rows → Except Failure α}
    (reads : Reads x v) (silent : Silent x)
    (rest : ∀ a s₁, v s.ledger s.rows = .ok a → s.Quiet s₁ → s₁.Records st (f a s₁)) :
    s.Records st ((x >>= f) s) := by
  obtain ⟨quiet, yield⟩ := reads s
  refine records_bind (Site.settles_none (silent s) fun g path => by rw [quiet.ledger])
    fun a s₁ run => ?_
  rw [run] at quiet yield
  rcases yield with eq | ⟨-, fault, eq⟩
  · exact rest a s₁ eq.symm quiet
  · cases eq

/-- A batch of requests records nothing. -/
theorem records_submit {f : Unit → Act Unit} (requests : List Request)
    (rest : ∀ s₁ : Site, s₁.ledger = s.ledger → s₁.Records st (f () s₁)) :
    s.Records st ((submit requests >>= f) s) := by
  have same := submit_ledger requests s
  refine records_bind (Site.settles_none (silent_submit requests s) fun g path => by rw [same])
    fun a s₁ run => ?_
  rw [run] at same
  exact rest s₁ same

/-- Neither does a change of the ledger that leaves the watermarks alone. -/
theorem settles_change {f : Ledger → Ledger} (s : Site)
    (marks : ∀ g path, ((f s.ledger).group g).watermark path = (s.ledger.group g).watermark path) :
    s.Settles none (change f s).2 :=
  Site.settles_none (silent_change f s) marks

theorem records_cursor (s : Site) (operation : UInt64) :
    s.Records none (change (·.withCursor operation) s) :=
  Or.inr ⟨rfl, settles_change s fun _ _ => rfl⟩

end Act

/-- A ledger commits what the watermark of the group and the path commits, and keeps the others. -/
theorem Ledger.watermark_of_commit {l l' : Ledger} {g : UInt64} {path : Path} {o : UInt64}
    {c : Watermark.Commit} (ok : l.commit g path o = .ok (l', c)) :
    ((l.group g).watermark path).commit o = .ok c ∧ ∀ g' path', (l'.group g').watermark path' =
      if g = g' ∧ path = path' then c.next else (l.group g').watermark path' := by
  unfold Ledger.commit at ok
  cases hc : (l.group g).commit path o with
  | error e =>
    rw [hc] at ok
    cases ok
  | ok r =>
    rw [hc] at ok
    cases ok
    obtain ⟨committed, marks⟩ := Group.watermark_of_commit hc
    refine ⟨committed, fun g' path' => ?_⟩
    rw [group_withGroup]
    by_cases same : g = g'
    · subst same
      simp [marks]
    · simp [same]

namespace Act

variable {s : Site} {g : UInt64} {path : Path}

/-- A commit counts how often it re-anchors. -/
theorem commit_run {o : UInt64} {l : Ledger} {c : Watermark.Commit}
    (ok : s.ledger.commit g path o = .ok (l, c)) :
    ∃ host, commit g path o s = (.ok (), ⟨l, host⟩) ∧
      s.host.Notes (·.countRebases c.rebases) [] host := by
  have counted := s.host.notes_count (·.countRebases c.rebases)
  unfold commit
  rw [ok]
  dsimp only
  cases c.advanced with
  | none => exact ⟨_, rfl, counted⟩
  | some mark =>
    exact ⟨_, rfl, counted.trans (Host.notes_tell_of_ne _ (.advanced _ mark) rfl)⟩

/-- **Commits inside the window all succeed, and count the changes of the base.** -/
-- The ack offset only rises, so what is inside the window now is inside it when its turn comes.
theorem forM_commit {os : List UInt64} (sound : s.ledger.Sound)
    (settled : ((s.ledger.group g).watermark path).Settled) (hos : ∀ o ∈ os, o < lastOffset)
    (inside : ∀ o ∈ os, ((s.ledger.group g).watermark path).inWindow o = true) :
    ∃ s', os.forM (commit g path) s = (.ok (), s') ∧
      s.host.Notes (·.countRebases (((s.ledger.group g).watermark path).baseMoves os)) [] s'.host ∧
      ∀ g' path', (s'.ledger.group g').watermark path' =
        ((s.ledger.group g').watermark path').attempts
          (if g = g' ∧ path = path' then os else []) := by
  induction os generalizing s with
  | nil => exact ⟨s, rfl, .refl s.host, fun g' path' => by rw [ite_self]; rfl⟩
  | cons o os ih =>
    obtain ⟨l', c, ok, sound', le⟩ := sound.commit (hos o List.mem_cons_self)
      (inside o List.mem_cons_self)
    obtain ⟨host, run, counted⟩ := commit_run ok
    obtain ⟨committed, marks⟩ := Ledger.watermark_of_commit ok
    have next : ((s.ledger.group g).watermark path).attempt o = c.next :=
      Watermark.attempt_of_ok committed
    have here : (l'.group g).watermark path = c.next := by rw [marks, if_pos ⟨rfl, rfl⟩]
    obtain ⟨s', runs, notes, after⟩ := ih (s := ⟨l', host⟩) sound'
      (by rw [here]; exact settled.commit committed)
      (fun p hp => hos p (List.mem_cons_of_mem o hp))
      fun p hp => Watermark.inWindow_mono le (inside p (List.mem_cons_of_mem o hp))
    refine ⟨s', ?_, ?_, fun g' path' => ?_⟩
    · show (commit g path o >>= fun _ => os.forM (commit g path)) s = _
      rw [bind_run, run]
      exact runs
    · have both := counted.trans notes
      rw [here] at both
      refine ⟨both.tally.trans ?_, both.errors, both.scope⟩
      rw [settled.rebases_eq committed, Watermark.baseMoves, next]
      simp only [Tally.countRebases, Nat.add_assoc]
    · rw [after]
      by_cases same : g = g' ∧ path = path'
      · obtain ⟨rfl, rfl⟩ := same
        rw [here, if_pos ⟨rfl, rfl⟩, if_pos ⟨rfl, rfl⟩, Watermark.attempts_cons, next]
      · rw [if_neg same, if_neg same, marks, if_neg same]

/-- A batch that passed the check of the window is recorded. -/
theorem commitAll_records {b : Batch} (sound : s.ledger.Sound)
    (settled : ((s.ledger.group g).watermark path).Settled) (last : b.last < lastOffset)
    (inside : ∀ o ∈ b.offsets, ((s.ledger.group g).watermark path).inWindow o = true)
    (operation : UInt64) :
    s.Records (some ⟨g, path, b⟩)
      ((commitAll g path b >>= fun _ => change (·.withCursor operation)) s) := by
  have early : ∀ o ∈ b.offsets, o < lastOffset :=
    fun o ho => UInt64.lt_of_le_of_lt (Batch.mem_offsets.1 ho).2 last
  obtain ⟨s', run, notes, marks⟩ := forM_commit sound settled early inside
  have settles : s.Settles (some ⟨g, path, b⟩) s' := ⟨notes, marks⟩
  rw [bind_run, commitAll, Batch.visit_eq, run]
  exact Or.inr ⟨rfl, settles.rest (settles_change s' fun _ _ => rfl)⟩

/-! ### Replays -/

theorem popEndMark_records {p : Pop} (ready : s.Ready) (last : p.offset < lastOffset)
    (operation : UInt64) :
    s.Records (some ⟨p.group, p.kind.path, p.batch⟩)
      ((popEndMark p >>= fun _ => change (·.withCursor operation)) s) := by
  unfold popEndMark
  simp only [bind_assoc]
  refine (checkWindow_reads p.group p.kind.path p.batch).records (silent_checkWindow _ _ _)
    fun _ s₁ checked quiet => ?_
  refine records_bind
    (settles_change s₁ (s₁.ledger.watermark_group_deliver p.group p.kind.path p.offset))
    fun _ s₂ run => ?_
  cases run
  -- The window was checked before the delivery, which has moved no watermark.
  rw [← quiet.ledger] at checked
  have ready' := ready.of_quiet quiet
  refine commitAll_records (ready'.sound.deliver p.group p.kind.path p.offset) ?_ last
    (fun o ho => ?_) operation
  · rw [Ledger.watermark_deliver]
    exact ready'.settled p.group p.kind.path
  · rw [Ledger.watermark_deliver]
    exact Ledger.inWindow_of_checkWindow checked o ho

theorem popInFlight_records (p : Pop) (operation : UInt64) :
    s.Records none ((popInFlight operation p >>= fun _ => change (·.withCursor operation)) s) := by
  unfold popInFlight
  simp only [bind_assoc]
  refine reads_ledger.records silent_ledger fun l s₁ _ _ => ?_
  refine (checkUnlocked_reads _).records (silent_checkUnlocked _) fun _ s₂ _ _ => ?_
  refine records_submit _ fun s₃ _ => ?_
  refine records_bind
    (settles_change s₃ (s₃.ledger.watermark_group_deliver p.group p.kind.path p.offset))
    fun _ s₄ _ => ?_
  exact records_cursor s₄ operation

theorem pop_records {p : Pop} (ready : s.Ready) (last : p.offset < lastOffset)
    (operation : UInt64) :
    s.Records ((Operation.pop p).settlement? s.ledger s.rows) (pop operation p s) := by
  unfold pop
  refine (checkTurn_reads operation p.queue).records (silent_checkTurn _ _) fun _ s₁ _ q₁ => ?_
  refine (reads_ofExcept p.check).records (silent_ofExcept _) fun _ s₂ _ q₂ => ?_
  refine (reads_tell (.popping operation p)).records (silent_tell _ rfl) fun _ s₃ _ q₃ => ?_
  have quiet := (q₁.trans q₂).trans q₃
  have settlement : (Operation.pop p).settlement? s.ledger s.rows =
      if p.endMark then some ⟨p.group, p.kind.path, p.batch⟩ else none := rfl
  rw [settlement]
  cases p.endMark with
  | true => exact popEndMark_records (s := s₃) (ready.of_quiet quiet) last operation
  | false => exact popInFlight_records (s := s₃) p operation

theorem ack_records (ready : s.Ready) (operation : UInt64) (a : Ack) :
    s.Records ((Operation.ack a).settlement? s.ledger s.rows) (ack operation a s) := by
  unfold ack
  refine (checkTurn_reads operation a.queue).records (silent_checkTurn _ _) fun _ s₁ _ q₁ => ?_
  refine (reads_tell (.acking operation a)).records (silent_tell _ rfl) fun _ s₂ _ q₂ => ?_
  refine reads_ledger.records silent_ledger fun l s₃ _ q₃ => ?_
  refine (find_reads a.target).records (silent_find _) fun c s₄ found q₄ => ?_
  have before := (q₁.trans q₂).trans q₃
  rw [before.ledger, before.rows] at found
  have settlement : (Operation.ack a).settlement? s.ledger s.rows =
      (settlingPath c.kind a.kind).map fun path => ⟨c.group, path, c.batch⟩ := by
    rw [Operation.settlement?, found]
  rw [settlement]
  cases settlingPath c.kind a.kind with
  | none => exact records_submit _ fun s₅ _ => records_cursor s₅ operation
  | some path =>
    refine (checkWindow_reads c.group path c.batch).records (silent_checkWindow _ _ _)
      fun _ s₅ checked q₅ => ?_
    refine records_submit _ fun s₆ same => ?_
    have now := ready.of_quiet ((before.trans q₄).trans q₅)
    rw [← q₅.ledger, ← same] at checked
    refine commitAll_records (by rw [same]; exact now.sound)
      (by rw [same]; exact now.settled c.group path) (ready.bounded.found found)
      (Ledger.inWindow_of_checkWindow checked) operation

theorem renew_records (operation : UInt64) (w : Renewal) :
    s.Records none (renew operation w s) := by
  unfold renew
  refine (checkTurn_reads operation w.queue).records (silent_checkTurn _ _) fun _ s₁ _ _ => ?_
  refine (reads_tell (.renewing operation w)).records (silent_tell _ rfl) fun _ s₂ _ _ => ?_
  refine reads_ledger.records silent_ledger fun l s₃ _ _ => ?_
  refine (find_reads w.target).records (silent_find _) fun c s₄ _ _ => ?_
  exact records_submit _ fun s₅ _ => records_cursor s₅ operation

/-- **A replay fails and records nothing, or it records its whole settlement.** -/
theorem apply_records (ready : s.Ready) {operation : UInt64} {o : Operation}
    (ends : (Command.replay operation o).Bounded) :
    s.Records (o.settlement? s.ledger s.rows) (apply operation o s) := by
  cases o with
  | pop p => exact pop_records ready ends operation
  | ack a => exact ack_records ready operation a
  | renewal w => exact renew_records operation w

end Act

/-! ### One call -/

/-- A call that was made on a queue, and where it started. -/
structure Occurrence where
  queue : QueueId
  command : Command
  site : Site

namespace Occurrence

/-- Where the call has led. -/
def after (o : Occurrence) : Site := (o.command.act o.site).2

/-- The error that the call returned, if it did. -/
def failure? (o : Occurrence) : Option Failure :=
  match (o.command.act o.site).1 with
  | .ok _ => none
  | .error e => some e

/-- Whether the call returned an error. -/
def fails (o : Occurrence) : Bool := o.failure?.isSome

/-- Whether the call replays an operation of a kind. -/
def replays (kind : OperationKind) (o : Occurrence) : Bool :=
  match o.command with
  | .replay _ op => op.kind = kind
  | _ => false

/-- Whether the call is an administrative one of a kind. -/
def administers (kind : AdminKind) (o : Occurrence) : Bool :=
  match o.command with
  | .takeSnapshot => kind = .snapshot
  | .load _ => kind = .load
  | .clear => kind = .clear
  | _ => false

/-- The batch that the call records: that of a replay that succeeds. -/
def settlement? (o : Occurrence) : Option Settlement :=
  match o.command with
  | .replay _ op => if o.fails then none else op.settlement? o.site.ledger o.site.rows
  | _ => none

/-- The number of its commits that change the base of their watermark. -/
def baseMoves (o : Occurrence) : Nat := o.site.ledger.baseMoves o.settlement?

/-- The event that tells of a failed replay. -/
def report? (o : Occurrence) : Option Log.Event :=
  match o.command with
  | .replay id op => o.failure?.map fun e =>
    .plain .error ledgerTarget "Replay operation failed"
      (queueFields o.queue ++ [("operation_id", .u64 id), ("operation", .text op.kind.name),
        ("error", .rendered e.output)]) []
  | _ => none

/-- How the counters change. -/
def counted (o : Occurrence) (t : Tally) : Tally :=
  match o.command with
  | .replay _ op => (t.countRebases o.baseMoves).countReplay op.kind o.fails
  | .takeSnapshot => t.countAdmin .snapshot
  | .load _ => t.countAdmin .load
  | .clear => t.countAdmin .clear
  | .release _ => t

end Occurrence

namespace Act

variable (kind : OperationKind) (operation : UInt64) {x : Act Unit} {s : Site}

theorem observed_of_ok (done : (x s).1 = .ok ()) :
    observed kind operation x s =
      (.ok (), { (x s).2 with host := (x s).2.host.count (·.countReplay kind false) }) := by
  unfold observed
  rcases hx : x s with ⟨e | _, s'⟩
  · rw [hx] at done
    cases done
  · rfl

theorem observed_of_error {e : Failure} (failed : (x s).1 = .error e) :
    observed kind operation x s = (.error e, { (x s).2 with
      host := ((x s).2.host.count (·.countReplay kind true)).tell
        (.failed (x s).2.ledger.queue operation kind e) }) := by
  unfold observed
  rcases hx : x s with ⟨e' | _, s'⟩
  · rw [hx] at failed
    cases failed
    rfl
  · rw [hx] at failed
    cases failed

end Act

namespace Occurrence

variable {q : QueueId} {operation : UInt64} {op : Operation} {s : Site}

theorem after_replay : after ⟨q, .replay operation op, s⟩ = (Act.replay operation op s).2 :=
  congrArg Prod.snd (Act.map_run (fun _ => none) (Act.replay operation op) s)

theorem failure?_replay : failure? ⟨q, .replay operation op, s⟩ =
    match (Act.replay operation op s).1 with
    | .ok _ => none
    | .error e => some e := by
  have run : ((Command.replay operation op).act s).1 =
      (Act.replay operation op s).1.map fun _ => none :=
    congrArg Prod.fst (Act.map_run _ _ s)
  rw [failure?, run]
  cases (Act.replay operation op s).1 <;> rfl

/-- How a replay that succeeded counts. -/
theorem replay_of_ok (done : (Act.replay operation op s).1 = .ok ()) :
    let o : Occurrence := ⟨q, .replay operation op, s⟩
    o.settlement? = op.settlement? s.ledger s.rows ∧ o.report? = none ∧
      o.counted = fun t => (t.countRebases (s.ledger.baseMoves o.settlement?)).countReplay op.kind
        false := by
  intro o
  have known : o.failure? = none := by rw [failure?_replay, done]
  have fails : o.fails = false := by rw [fails, known]; rfl
  refine ⟨?_, ?_, funext fun t => ?_⟩
  · show (if o.fails then none else _) = _
    rw [fails]
    rfl
  · show o.failure?.map _ = none
    rw [known]
    rfl
  · show (t.countRebases o.baseMoves).countReplay op.kind o.fails = _
    rw [fails]
    rfl

/-- How a replay that failed counts, and what is told of it. -/
theorem replay_of_error {e : Failure} (failed : (Act.replay operation op s).1 = .error e) :
    let o : Occurrence := ⟨q, .replay operation op, s⟩
    o.settlement? = none ∧ o.report? = some (Entry.event ⟨.failed q operation op.kind e, none⟩) ∧
      o.counted = (·.countReplay op.kind true) := by
  intro o
  have known : o.failure? = some e := by rw [failure?_replay, failed]
  have fails : o.fails = true := by rw [fails, known]; rfl
  have nothing : o.settlement? = none := by
    show (if o.fails then none else _) = _
    rw [fails]
    rfl
  refine ⟨nothing, ?_, funext fun t => ?_⟩
  · show o.failure?.map _ = _
    rw [known]
    rfl
  · show (t.countRebases (s.ledger.baseMoves o.settlement?)).countReplay op.kind o.fails = _
    rw [nothing, fails]
    rfl

/-- What a replay leaves on the host, and what it does to the watermarks. -/
theorem notes_replay (ready : s.Ready) (ends : (Command.replay operation op).Bounded)
    (own : s.ledger.queue = q) (idle : s.host.scope = none) :
    let o : Occurrence := ⟨q, .replay operation op, s⟩
    s.host.Notes o.counted o.report?.toList o.after.host ∧
      ∀ g path, (o.after.ledger.group g).watermark path =
        ((s.ledger.group g).watermark path).attempts (Settlement.commits o.settlement? g path) := by
  intro o
  rcases Act.apply_records ready ends with ⟨e, failed, settles⟩ | ⟨done, settles⟩
  · have run := Act.observed_of_error op.kind operation failed
    have answer : (Act.replay operation op s).1 = .error e := congrArg Prod.fst run
    obtain ⟨nothing, report, counts⟩ := replay_of_error (q := q) answer
    -- The ledger is still that of the queue.
    have queue : (Act.apply operation op s).2.ledger.queue = q := by
      have quiet :=
        Command.quiet_of_error (c := .replay operation op) ready.sound ready.bounded ends
        (by rw [Command.act, Act.map_run, answer]; rfl)
      have after : ((Command.replay operation op).act s).2.ledger =
          (Act.apply operation op s).2.ledger := by
        rw [Command.act, Act.map_run, Act.replay, run]
      rw [← after, quiet.ledger, own]
    rw [nothing, report, counts, after_replay, Act.replay, run, queue]
    have counted := settles.notes.trans (Host.notes_count _ (·.countReplay op.kind true))
    have told := counted.trans (Host.notes_tell _ (.failed q operation op.kind e))
    rw [counted.scope.trans idle] at told
    exact ⟨told, settles.marks⟩
  · have run := Act.observed_of_ok op.kind operation done
    obtain ⟨settlement, report, counts⟩ := replay_of_ok (q := q) (congrArg Prod.fst run)
    rw [report, counts, settlement, after_replay, Act.replay, run]
    exact ⟨settles.notes.trans (Host.notes_count _ (·.countReplay op.kind false)), settles.marks⟩

/-! ### Administrative calls -/

/-- What is counted first is counted whatever comes after. -/
theorem notes_counted {α : Type} {f : Tally → Tally} {x : Act α} (silent : Act.Silent x)
    (scope : Scope) (idle : s.host.scope = none) :
    s.host.Notes f [] (Act.within scope (Act.count f >>= fun _ => x) s).2.host := by
  refine Act.notes_within idle scope ?_
  rw [Act.bind_run]
  exact (Host.notes_count _ f).trans
    (silent { s with host := (s.host.inScope (some scope)).count f })

theorem notes_takeSnapshot (idle : s.host.scope = none) :
    s.host.Notes (·.countAdmin .snapshot) [] (Act.takeSnapshot s).2.host := by
  rw [Act.takeSnapshot, Act.bind_run, Act.ledger_run]
  refine notes_counted (Act.silent_scan.bind fun cs => ?_) (.takeSnapshot s.ledger.queue) idle
  exact (Act.silent_onHost Host.notes_pin).bind fun version =>
    (Act.silent_tell
      (.tookSnapshot s.ledger.cursor version s.ledger.images.length cs.length) rfl).bind
      fun _ => Act.silent_pure _

theorem notes_loadSnapshot (snapshot : Snapshot) (idle : s.host.scope = none) :
    s.host.Notes (·.countAdmin .load) [] (Act.loadSnapshot snapshot s).2.host := by
  rw [Act.loadSnapshot, Act.bind_run, Act.ledger_run]
  refine notes_counted ?_ (.loadSnapshot s.ledger.queue snapshot.cursor) idle
  refine (Act.silent_ofExcept _).bind fun groups => (Act.silent_ofExcept _).bind fun _ =>
    Act.silent_scan.bind fun existing => ?_
  have rest := (Act.silent_submit (Act.replacement s.ledger.config
    (Ledger.outdated existing snapshot.checkPoints) snapshot.checkPoints)).bind fun _ =>
      (Act.silent_change fun l => { l with groups := groups, cursor := snapshot.cursor }).bind
        fun _ => Act.silent_tell (.loadedSnapshot groups.size snapshot.checkPoints.length) rfl
  dsimp only
  split
  · exact rest
  · exact (Act.silent_tell (.dropping _) rfl).bind fun _ => rest

theorem notes_clear (idle : s.host.scope = none) :
    s.host.Notes (·.countAdmin .clear) [] (Act.clear s).2.host := by
  rw [Act.clear, Act.bind_run, Act.ledger_run]
  refine notes_counted ?_ (.clear s.ledger.queue) idle
  exact Act.silent_scan.bind fun existing => (Act.silent_submit _).bind fun _ =>
    (Act.silent_change _).bind fun _ => Act.silent_tell (.cleared existing.length) rfl

theorem notes_release (snapshot : Snapshot) (s : Site) :
    s.host.Notes id [] (Act.release snapshot s).2.host :=
  (Act.silent_ledger.bind fun l => (Act.silent_onHost (Host.notes_release _)).bind fun held =>
    (Act.silent_tell (.releasedSnapshot l.queue snapshot.storeVersion held) rfl).bind fun _ =>
      Act.silent_pure _) s

/-- **What one call leaves on the host.** It is counted once, whether it succeeds or fails, and an
error event is told exactly if it is a replay that fails. -/
theorem notes (o : Occurrence) (ready : o.site.Ready) (ends : o.command.Bounded)
    (own : o.site.ledger.queue = o.queue) (idle : o.site.host.scope = none) :
    o.site.host.Notes o.counted o.report?.toList o.after.host := by
  obtain ⟨q, c, s⟩ := o
  have after {α : Type} (f : α → Option Snapshot) (x : Act α) : ((f <$> x) s).2 = (x s).2 :=
    congrArg Prod.snd (Act.map_run f x s)
  cases c with
  | replay id op => exact (notes_replay ready ends own idle).1
  | takeSnapshot =>
    show s.host.Notes _ [] ((some <$> Act.takeSnapshot) s).2.host
    rw [after]
    exact notes_takeSnapshot idle
  | load snapshot =>
    show s.host.Notes _ [] (((fun _ => none) <$> Act.loadSnapshot snapshot) s).2.host
    rw [after]
    exact notes_loadSnapshot snapshot idle
  | clear =>
    show s.host.Notes _ [] (((fun _ => none) <$> Act.clear) s).2.host
    rw [after]
    exact notes_clear idle
  | release snapshot =>
    show s.host.Notes _ [] (((fun _ => none) <$> Act.release snapshot) s).2.host
    rw [after]
    exact notes_release snapshot s

end Occurrence

end QueueLedger
