import QueueLedger.Proofs.Lockstep
/-!
# Sites that look alike

A call looks at the ledger and at the rows of its queue. The rows of others, pinned views, the
counters and the journal are no part of what it decides. So from two sites with the same ledger and
the same rows of the queue, every sequence of replays gets the same answers
(`Act.replayAll_alike`), and so does any call, but for the version of the view that a snapshot pins
(`Command.act_alike`).

## Proof shape

On hosts that answer, sites that look alike are twins (`Site.Alike.twin`), and on twins every call
keeps in lockstep.
-/

namespace QueueLedger

/-- Rows that are the image of the same check points agree. -/
theorem Rows.agree_of_mirrors {tables : Config} {q : QueueId} {r r' : Rows} {live : Set CheckPoint}
    (m : Mirrors tables q r live) (m' : Mirrors tables q r' live) : Agree tables q r r' := by
  intro a owned
  refine Option.ext fun v => ?_
  rw [m.get_iff a v owned, m'.get_iff a v owned]

/-! ### Sites -/

namespace Site

/-- The ledger is the same, and so are the rows of its queue. -/
structure Alike (s s' : Site) : Prop where
  ledger : s'.ledger = s.ledger
  rows : Rows.Agree s.ledger.config s.ledger.queue s.rows s'.rows

variable {s s' s₁ : Site}

theorem Alike.symm (h : s.Alike s') : s'.Alike s := by
  refine ⟨h.ledger.symm, fun a owned => ?_⟩
  rw [h.ledger] at owned
  exact (h.rows a owned).symm

theorem Alike.trans (h : s.Alike s') (h' : s'.Alike s₁) : s.Alike s₁ := by
  refine ⟨h'.ledger.trans h.ledger, fun a owned => (h.rows a owned).trans (h'.rows a ?_)⟩
  rw [h.ledger]
  exact owned

theorem Quiet.alike (h : Quiet s s₁) : s.Alike s₁ :=
  ⟨h.ledger, fun a _ => by rw [h.rows]⟩

/-- On hosts that answer, sites that look alike are twins. -/
theorem Alike.twin (h : s.Alike s') (answers : s.host.Answers) (answers' : s'.host.Answers) :
    Twin s.ledger.config s.ledger.queue s s' :=
  ⟨rfl, rfl, h.ledger, h.rows, .of_answers answers answers'⟩

theorem Twin.alike {tables : Config} {q : QueueId} (h : Twin tables q s s') : s.Alike s' := by
  refine ⟨h.ledger, ?_⟩
  rw [h.queue, h.config]
  exact h.rows

end Site

/-! ### Replays -/

namespace Act

/-- **One replay.** Sites that look alike give the same answer and stay alike. -/
theorem replay_alike {s s' : Site} (alike : s.Alike s') (answers : s.host.Answers)
    (answers' : s'.host.Answers) (id : UInt64) (o : Operation) :
    (replay id o s').1 = (replay id o s).1 ∧ (replay id o s).2.Alike (replay id o s').2 := by
  obtain ⟨matched, twin⟩ := lockstep_replay id o s s' (alike.twin answers answers')
  exact ⟨matched.eq, twin.alike⟩

/-- Replays operations one after the other, whether they succeed or fail. -/
def replayAll : List (UInt64 × Operation) → Site → List (Except Failure Unit) × Site
  | [], s => ([], s)
  | (id, o) :: later, s =>
    let (answer, s') := replay id o s
    let (answers, s'') := replayAll later s'
    (answer :: answers, s'')

/-- **Any replays.** Sites that look alike give the same answers and stay alike. -/
theorem replayAll_alike {s s' : Site} (alike : s.Alike s') (answers : s.host.Answers)
    (answers' : s'.host.Answers) (operations : List (UInt64 × Operation)) :
    (replayAll operations s').1 = (replayAll operations s).1 ∧
      (replayAll operations s).2.Alike (replayAll operations s').2 := by
  induction operations generalizing s s' with
  | nil => exact ⟨rfl, alike⟩
  | cons operation later ih =>
    obtain ⟨id, o⟩ := operation
    obtain ⟨first, alike'⟩ := replay_alike alike answers answers' id o
    obtain ⟨rest, end_⟩ := ih alike' ((replay_does id o).answers answers)
      ((replay_does id o).answers answers')
    exact ⟨congrArg₂ List.cons first rest, end_⟩

end Act

/-! ### All calls -/

/-- A call on sites that look alike gives the same, but for versions, and they stay alike. -/
theorem Command.act_alike {s s' : Site} (alike : s.Alike s') (answers : s.host.Answers)
    (answers' : s'.host.Answers) (c : Command) :
    (c.act s').1.map (·.map Snapshot.unversioned) = (c.act s).1.map (·.map Snapshot.unversioned) ∧
      (c.act s).2.Alike (c.act s').2 := by
  obtain ⟨matched, twin⟩ := c.lockstep s s' (alike.twin answers answers')
  exact ⟨matched.map_eq, twin.alike⟩

end QueueLedger
