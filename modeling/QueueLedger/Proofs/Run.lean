import QueueLedger.Proofs.Decision
/-!
# Runs of calls

The owner of a queue replays operations, takes snapshots, loads them and releases their views,
and clears the queue. A run is any sequence of such calls, with whatever failures come on the
way; which calls may come next is a policy that the theorems about runs choose.

## Proof shape

`Command.act_cases` says once for all calls what one of them can do: it fails and changes nothing,
or it carries out its decision. `Reached.induction` carries an invariant through a run; what is
left to show about a run is what a decision keeps.
-/

namespace QueueLedger

/-- A call on a ledger that can change something. -/
inductive Command
  /-- Replays an operation under its id. -/
  | replay (id : UInt64) (operation : Operation)
  /-- Takes a snapshot. -/
  | takeSnapshot
  /-- Loads a snapshot. -/
  | load (snapshot : Snapshot)
  /-- Removes every trace of the queue. -/
  | clear
  /-- Lets go of the view that a snapshot pinned. -/
  | release (snapshot : Snapshot)

namespace Act

variable {α β : Type}

theorem map_run (f : α → β) (x : Act α) (s : Site) :
    (f <$> x) s = ((x s).1.map f, (x s).2) := by
  rw [map_eq_pure_bind, bind_run]
  rcases x s with ⟨e | a, s'⟩ <;> rfl

end Act

namespace Site

/-- From `s` to `s'` a decision is carried out. Views of the store may be pinned or let go of. -/
structure Moves (s : Site) (d : Decision) (s' : Site) : Prop where
  ledger : s'.ledger = d.ledger
  rows : s'.rows = s.rows.apply d.requests
  batches : s'.host.batches = s.host.batches + if d.requests.isEmpty then 0 else 1
  refuses : s'.host.outages.refuses = s.host.outages.refuses

theorem Done.moves {s s' : Site} {d : Decision} (h : Done s d s') : Moves s d s' :=
  ⟨h.ledger, h.rows, h.batches, h.refuses⟩

theorem Moves.answers {s s' : Site} {d : Decision} (h : Moves s d s') :
    s'.host.Answers ↔ s.host.Answers := by
  rw [Host.Answers, Host.Answers, h.refuses]

end Site

namespace Act

/-- On a host that answers, an action fails and changes nothing, or carries out its decision; and
the decision says which of the two. -/
theorem Does.of_answers {x : Act Unit} {d : Ledger → Rows → Except Failure Decision} (h : Does x d)
    {s : Site} (answers : s.host.Answers) :
    (∃ e, d s.ledger s.rows = .error e ∧ (x s).1 = .error e ∧ Site.Quiet s (x s).2) ∨
      ∃ dec, d s.ledger s.rows = .ok dec ∧ (x s).1 = dec.outcome ∧ Site.Done s dec (x s).2 := by
  rcases h s with ⟨e, answer, quiet, decided | ⟨refuses, -⟩⟩ | done
  · exact Or.inl ⟨e, decided, answer, quiet⟩
  · exact absurd answers refuses
  · exact Or.inr done

/-- It still answers afterwards. -/
theorem Does.answers {x : Act Unit} {d : Ledger → Rows → Except Failure Decision} (h : Does x d)
    {s : Site} (answers : s.host.Answers) : (x s).2.host.Answers := by
  rcases h.of_answers answers with ⟨e, -, -, quiet⟩ | ⟨dec, -, -, done⟩
  · exact quiet.host.answers.2 answers
  · exact done.moves.answers.2 answers

end Act

namespace Command

/-- Makes the call. Only taking a snapshot gives something back. -/
def act : Command → Act (Option Snapshot)
  | replay id operation => (fun _ => none) <$> Act.replay id operation
  | takeSnapshot => some <$> Act.takeSnapshot
  | load snapshot => (fun _ => none) <$> Act.loadSnapshot snapshot
  | clear => (fun _ => none) <$> Act.clear
  | release snapshot => (fun _ => none) <$> Act.release snapshot

/-- What the call decides. Taking a snapshot and releasing one change no ledger and no row. -/
def decision : Command → Ledger → Rows → Except Failure Decision
  | replay id operation, l, r => Ledger.replayDecision id operation l r
  | takeSnapshot, l, r => do
    let _ ← l.scanned r
    .ok ⟨[], .ok (), l⟩
  | load snapshot, l, r => Ledger.loadDecision snapshot l r
  | clear, l, r => Ledger.clearDecision l r
  | release _, l, _ => .ok ⟨[], .ok (), l⟩

/-- A call failed and changed nothing, as its decision says or because the store refused. -/
def Fails (c : Command) (s : Site) (r : Except Failure (Option Snapshot) × Site) : Prop :=
  ∃ e, r.1 = .error e ∧ Site.Quiet s r.2 ∧
    (c.decision s.ledger s.rows = .error e ∨ ¬ s.host.Answers ∧ ∃ fault, e = .store fault)

/-- A call carried out its decision. -/
def Performs (c : Command) (s : Site) (r : Except Failure (Option Snapshot) × Site) : Prop :=
  ∃ d, c.decision s.ledger s.rows = .ok d ∧ r.1.map (fun _ => ()) = d.outcome ∧ Site.Moves s d r.2

theorem map_cases {c : Command} {x : Act Unit} {d : Ledger → Rows → Except Failure Decision}
    (hx : Act.Does x d) (eq : c.decision = d) (s : Site) :
    c.Fails s (((fun _ => none) <$> x : Act (Option Snapshot)) s) ∨
      c.Performs s (((fun _ => none) <$> x : Act (Option Snapshot)) s) := by
  rw [Act.map_run]
  rcases hx s with ⟨e, answer, quiet, why⟩ | ⟨dec, decided, answer, done⟩
  · left
    refine ⟨e, ?_, quiet, ?_⟩
    · rw [answer]; rfl
    · rw [eq]; exact why
  · right
    refine ⟨dec, ?_, ?_, done.moves⟩
    · rw [eq]; exact decided
    · dsimp only
      rw [answer]
      cases dec.outcome <;> rfl

/-- Letting go of a view leaves the ledger and the rows alone. -/
theorem release_cases (snapshot : Snapshot) (s : Site) :
    (release snapshot).Fails s ((release snapshot).act s) ∨
      (release snapshot).Performs s ((release snapshot).act s) := by
  have run : (release snapshot).act s =
      ((Act.release snapshot s).1.map fun _ => none, (Act.release snapshot s).2) :=
    Act.map_run _ _ s
  rw [run, Act.release, Act.bind_run, Act.ledger_run]
  dsimp only
  rw [Act.bind_run]
  cases hr : s.host.outages.refusesNext .releaseSnapshot with
  | true =>
    rw [Act.onHost, Host.release, Host.attempt_refused hr]
    refine Or.inl ⟨_, rfl, ⟨rfl, ⟨rfl, rfl, rfl⟩⟩, Or.inr ⟨fun all => ?_, _, rfl⟩⟩
    rw [Outages.refusesNext, all] at hr
    cases hr
  | false =>
    rw [Act.onHost, Host.release, Host.attempt_answered hr]
    exact Or.inr ⟨_, rfl, rfl, rfl, rfl, rfl, rfl⟩

/-- A call fails and changes nothing, or it carries out its decision. -/
theorem act_cases (c : Command) (s : Site) : c.Fails s (c.act s) ∨ c.Performs s (c.act s) := by
  cases c with
  | replay id operation => exact map_cases (Act.replay_does id operation) rfl s
  | load snapshot => exact map_cases (Act.loadSnapshot_does snapshot) rfl s
  | clear => exact map_cases Act.clear_does rfl s
  | release snapshot => exact release_cases snapshot s
  | takeSnapshot =>
    have run : takeSnapshot.act s = ((Act.takeSnapshot s).1.map some, (Act.takeSnapshot s).2) :=
      Act.map_run some Act.takeSnapshot s
    rw [run]
    -- A pinned view is no row, so taking a snapshot counts as doing nothing.
    rcases Act.takeSnapshot_cases s with ⟨e, answer, quiet, why⟩ | ⟨cs, found, answer, pins⟩
    · refine Or.inl ⟨e, by rw [answer]; rfl, quiet, why.imp_left fun failed => ?_⟩
      show s.ledger.scanned s.rows >>= _ = _
      rw [failed]; rfl
    · refine Or.inr ⟨⟨[], .ok (), s.ledger⟩, ?_, by rw [answer]; rfl, pins.ledger, ?_, pins.batches,
        pins.refuses⟩
      · show s.ledger.scanned s.rows >>= _ = _
        rw [found]; rfl
      · rw [Site.rows, pins.store]; rfl

/-- What a call gives back is a snapshot of the ledger and of the check points in its rows. -/
theorem taken_spec {c : Command} {s : Site} {snapshot : Snapshot}
    (taken : (c.act s).1 = .ok (some snapshot)) :
    c = takeSnapshot ∧ snapshot.cursor = s.ledger.cursor ∧ snapshot.groups = s.ledger.images ∧
      s.ledger.scanned s.rows = .ok snapshot.checkPoints := by
  have none_given {α : Type} {x : Act α}
      (h : (((fun _ => none) <$> x : Act (Option Snapshot)) s).1 = .ok (some snapshot)) :
      False := by
    rw [Act.map_run] at h
    rcases hx : (x s).1 with e | a
    · rw [hx] at h; cases h
    · rw [hx] at h; cases h
  cases c with
  | replay id operation => exact (none_given taken).elim
  | load other => exact (none_given taken).elim
  | clear => exact (none_given taken).elim
  | release other => exact (none_given taken).elim
  | takeSnapshot =>
    rw [act, Act.map_run] at taken
    rcases Act.takeSnapshot_cases s with ⟨e, answer, -, -⟩ | ⟨cs, found, answer, -⟩
    · rw [answer] at taken
      cases taken
    · rw [answer] at taken
      cases taken
      exact ⟨rfl, rfl, rfl, found⟩

end Command

/-! ### Runs -/

/-- A moment of a run: where the calls have led, and the snapshots that they gave. -/
structure Moment where
  site : Site
  taken : List Snapshot

namespace Moment

/-- The moment after a call, whether it succeeds or fails. -/
def after (m : Moment) (c : Command) : Moment :=
  match c.act m.site with
  | (.ok (some snapshot), s) => ⟨s, snapshot :: m.taken⟩
  | (_, s) => ⟨s, m.taken⟩

/-- The moment before the first call on a queue. -/
def start (queue : QueueId) (config : Config) (host : Host) : Moment :=
  ⟨⟨.empty queue config, host⟩, []⟩

theorem after_site (m : Moment) (c : Command) : (m.after c).site = (c.act m.site).2 := by
  unfold after
  rcases c.act m.site with ⟨e | (_ | snapshot), s⟩ <;> rfl

/-- Only taking a snapshot adds one. -/
theorem mem_taken_after {m : Moment} {c : Command} {snapshot : Snapshot}
    (h : snapshot ∈ (m.after c).taken) :
    snapshot ∈ m.taken ∨ (c.act m.site).1 = .ok (some snapshot) := by
  unfold after at h
  rcases hc : c.act m.site with ⟨e | (_ | given), s⟩
  · rw [hc] at h
    exact Or.inl h
  · rw [hc] at h
    exact Or.inl h
  · rw [hc] at h
    rcases List.mem_cons.1 h with rfl | h
    · exact Or.inr rfl
    · exact Or.inl h

end Moment

/-- The moments that a run leads to whose calls are all allowed. -/
inductive Reached (allowed : Moment → Command → Prop) (m₀ : Moment) : Moment → Prop
  /-- No call was made. -/
  | start : Reached allowed m₀ m₀
  /-- One more call was made. -/
  | call {m : Moment} (c : Command) (before : Reached allowed m₀ m) (may : allowed m c) :
    Reached allowed m₀ (m.after c)

namespace Reached

variable {allowed : Moment → Command → Prop} {m₀ m m' : Moment}

/-- What holds at the start and is kept by every allowed call holds at the end of every run. -/
theorem induction {motive : Moment → Prop} (h : Reached allowed m₀ m) (first : motive m₀)
    (keep : ∀ m c, motive m → allowed m c → motive (m.after c)) : motive m := by
  induction h with
  | start => exact first
  | call c before may ih => exact keep _ c ih may

theorem trans (h : Reached allowed m₀ m) (h' : Reached allowed m m') : Reached allowed m₀ m' := by
  induction h' with
  | start => exact h
  | call c before may ih => exact ih.call c may

end Reached

/-- A host that answers goes on to do so. -/
theorem Moment.answers_of_reached {allowed : Moment → Command → Prop} {queue : QueueId}
    {config : Config} {host : Host} {m : Moment} (answers : host.Answers)
    (run : Reached allowed (.start queue config host) m) : m.site.host.Answers := by
  refine run.induction (motive := fun m => m.site.host.Answers) answers fun m c h _ => ?_
  rw [after_site]
  rcases c.act_cases m.site with ⟨e, -, quiet, -⟩ | ⟨d, -, -, moves⟩
  · exact quiet.host.answers.2 h
  · exact moves.answers.2 h

/-- Whether an operation id is above that of the operation that was applied last. -/
def Ledger.Above (l : Ledger) (id : UInt64) : Prop := ∀ cursor ∈ l.cursor, cursor < id

-- Written out, since all words are finitely many and an instance that tries them all may be found.
instance (l : Ledger) (id : UInt64) : Decidable (l.Above id) :=
  match h : l.cursor with
  | none => .isTrue (by simp [Ledger.Above, h])
  | some cursor => decidable_of_iff (cursor < id) (by simp [Ledger.Above, h])

/-- It is the turn of such an operation. -/
theorem Ledger.checkTurn_of_above {l : Ledger} {queue : QueueId} {id : UInt64}
    (own : queue = l.queue) (above : l.Above id) : l.checkTurn id queue = .ok () := by
  unfold checkTurn
  rw [if_pos own]
  cases hc : l.cursor with
  | none => rfl
  | some cursor => exact if_pos (UInt64.le_of_lt (above cursor hc))

end QueueLedger
