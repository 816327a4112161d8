import QueueLedger.Proofs.History
import QueueLedger.Proofs.Lead
/-!
# Trying an operation again

An operation that was accepted can be tried again under its id, by an owner who does not know how
the first try ended. A second try changes nothing: a pop and a renewal are accepted once more, and
an acknowledgment finds that its delivery is gone (`Reached.retried`).

## Proof shape

The second try does not take the branches of the first. It meets its own locks, finds the renewed
check point in the place of the old one, and records offsets that are recorded already. Each part
has a lemma on its own: a batch sent twice is a batch sent once (`Rows.apply_apply`); the offsets
that the groups account for are no news to them (`Ledger.Accounts.deliver_eq_self`,
`Ledger.Accounts.commitEach_eq_self`), whatever became of the bitmap on the way; and the decision
of the second try is read off these (`Ledger.replayDecision_again`).
-/

namespace QueueLedger

/-! ### Recording what is recorded -/

namespace Bitmap

theorem insert_of_has {b : Bitmap} {n : Nat} (h : b.has n = true) :
    b.insert (UInt32.ofNat n) = b := by
  obtain ⟨i, hi, rfl⟩ := has_iff.1 h
  refine ext fun j => ?_
  rw [UInt32.ofNat_toNat, Std.ExtTreeSet.mem_insert, Std.LawfulEqCmp.compare_eq_iff_eq]
  constructor
  · intro h
    rcases h with rfl | hj
    · exact hi
    · exact hj
  · exact Or.inr

theorem lt_of_has {b : Bitmap} {n : Nat} (h : b.has n = true) : n < range := by
  by_contra large
  rw [has_of_not_lt large] at h
  cases h

end Bitmap

namespace Watermark.Collects

variable {first : UInt64} {s : Set UInt64} {w : Watermark} {o : UInt64}

/-- What is collected lies inside the window. -/
theorem inWindow_of_mem (h : Collects first s w) (ho : o ∈ s) : w.inWindow o = true := by
  rw [inWindow_iff]
  by_cases below : o < w.ackOffset
  · have := UInt64.lt_iff_toNat_lt.1 below
    omega
  · obtain ⟨-, bit⟩ := (h.marks_iff o (UInt64.not_lt.1 below)).2 ho
    have index : o.toNat - w.base.toNat < window := Bitmap.lt_of_has bit
    have base := UInt64.le_iff_toNat_le.1 h.sound.base_le
    omega

/-- Recording it once more changes nothing: its bit is set, or the ack offset has passed it. -/
theorem commit_eq_self (h : Collects first s w) (ho : o ∈ s) :
    w.commit o = .ok ⟨w, none, [], 0⟩ := by
  by_cases below : o < w.ackOffset
  · exact commit_of_lt below
  have above := UInt64.not_lt.1 below
  obtain ⟨-, bit⟩ := (h.marks_iff o above).2 ho
  have anchored : w.anchored o = (w, 0) := if_pos (Bitmap.lt_of_has bit)
  have recorded : w.record o = w := by rw [record, Bitmap.insert_of_has bit]
  -- The ack offset is not collected, so it is where the first gap is.
  have gap : ¬ w.marks w.ackOffset.toNat := fun bit =>
    h.ackOffset_notMem ((h.marks_iff w.ackOffset (UInt64.le_refl _)).1 bit)
  have target : w.target = w.ackOffset.toNat :=
    target_eq h.sound.base_le (Nat.le_refl _) gap fun n hn hlt => absurd hn (Nat.not_le.2 hlt)
  have base := h.sound.base_le
  rw [Watermark.commit, if_neg below, if_pos (h.inWindow_of_mem ho),
    if_pos (UInt64.le_trans base above), anchored]
  dsimp only
  rw [recorded, if_pos ⟨base, h.sound.target_lt⟩, target, UInt64.ofNat_toNat, settle, if_pos rfl]

end Watermark.Collects

namespace Group

/-- A consume offset that is reached is not raised. -/
theorem advance_eq_self {g : Group} {path : Path} {next : UInt64}
    (reached : next ≤ g.counters.consumed path) : g.advance path next = g := by
  have same : max (g.counters.consumed path) next = g.counters.consumed path := by
    rw [← UInt64.toNat_inj, UInt64.toNat_max]
    exact Nat.max_eq_left (UInt64.le_iff_toNat_le.1 reached)
  cases path with
  | data => rw [advance, GroupCounters.advance, show max g.counters.consume next = _ from same]; rfl
  | retry =>
    rw [advance, GroupCounters.advance, show max g.counters.retryConsume next = _ from same]; rfl

theorem commit_eq_self {g : Group} {path : Path} {first o : UInt64} {s : Set UInt64}
    (h : Watermark.Collects first s (g.watermark path)) (ho : o ∈ s) :
    g.commit path o = .ok (g, ⟨g.watermark path, none, [], 0⟩) := by
  have same : g.withWatermark path (g.watermark path) = g := by cases path <;> rfl
  rw [commit, h.commit_eq_self ho]
  dsimp only
  rw [same]

end Group

namespace Ledger

variable {l : Ledger} {g : UInt64} {path : Path} {s : Group}

theorem withGroup_eq_self (known : l.groups.get? g = some s) : l.withGroup g s = l := by
  have groups : l.groups.insert g s = l.groups := by
    refine Std.ExtTreeMap.ext_getElem? fun g' => ?_
    rw [Std.ExtTreeMap.getElem?_insert]
    split
    next same =>
      rw [Std.LawfulEqCmp.compare_eq_iff_eq] at same
      rw [← same]
      exact known.symm
    next => rfl
  rw [withGroup, groups]

namespace Accounts

variable {delivered covered : UInt64 → Path → Set UInt64} {o : UInt64}

/-- A group that something was delivered to is known. -/
theorem known (h : l.Accounts delivered covered) (ho : o ∈ delivered g path) :
    l.groups.get? g = some (l.group g) := by
  rcases l.group_cases g with known | fresh
  · exact known
  have reached := (h.consumed g path).2 (Or.inr ⟨o, ho, rfl⟩)
  rw [counters, fresh] at reached
  cases path <;> simp [Group.fresh, GroupCounters.zero, GroupCounters.consumed] at reached

/-- Delivering up to an offset again changes nothing. -/
theorem deliver_eq_self (h : l.Accounts delivered covered) (ho : o ∈ delivered g path) :
    l.deliver g path o = l := by
  have reached := (h.consumed g path).2 (Or.inr ⟨o, ho, rfl⟩)
  have next : satAdd o 1 ≤ (l.group g).counters.consumed path := by
    rw [UInt64.le_iff_toNat_le, toNat_satAdd]
    exact Nat.le_trans (Nat.min_le_left _ _) reached
  rw [Ledger.deliver, Group.advance_eq_self next, withGroup_eq_self (h.known ho)]

theorem commitEach_eq_self (h : l.Accounts delivered covered) (ho : o ∈ delivered g path)
    {os : List UInt64} (hos : ∀ o ∈ os, o ∈ covered g path) :
    l.commitEach g path os = (.ok (), l) := by
  induction os with
  | nil => rfl
  | cons o' os ih =>
    have same := Group.commit_eq_self (h.collects g path) (hos o' List.mem_cons_self)
    rw [Ledger.commitEach, Ledger.commit, same]
    dsimp only
    rw [withGroup_eq_self (h.known ho)]
    exact ih fun p hp => hos p (List.mem_cons_of_mem o' hp)

end Accounts

end Ledger

/-! ### A batch sent twice -/

namespace Rows

/-- Where a batch has a request, what was there before does not matter. -/
theorem get_apply_of_exists {qs : List Request} {a : Address} (some_at : ∃ q ∈ qs, q.address = a)
    (r r' : Rows) : (r.apply qs).get a.space a.key = (r'.apply qs).get a.space a.key := by
  induction qs generalizing r r' with
  | nil =>
    obtain ⟨q, hq, -⟩ := some_at
    cases hq
  | cons q qs ih =>
    rw [apply_cons, apply_cons]
    by_cases later : ∃ q' ∈ qs, q'.address = a
    · exact ih later _ _
    · have last : ∀ q' ∈ qs, q'.address ≠ a := fun q' hq' ha => later ⟨q', hq', ha⟩
      obtain ⟨q', hq', ha⟩ := some_at
      obtain rfl : q' = q := by
        rcases List.mem_cons.1 hq' with same | hq'
        · exact same
        · exact absurd ha (last q' hq')
      rw [get_apply_of_ne last, get_apply_of_ne last, get_request, get_request, if_pos ha,
        if_pos ha]

/-- A batch sent twice is a batch sent once. -/
theorem apply_apply (r : Rows) (qs : List Request) : (r.apply qs).apply qs = r.apply qs := by
  refine ext_get fun space key => ?_
  by_cases here : ∃ q ∈ qs, q.address = ⟨space, key⟩
  · exact get_apply_of_exists here (r.apply qs) r
  · exact get_apply_of_ne (a := ⟨space, key⟩) fun q hq ha => here ⟨q, hq, ha⟩

end Rows

/-- Moving a delivery to the time to which it was moved already changes no row. -/
theorem CheckPoint.apply_moves_moves (c : CheckPoint) (tables : Config) (t : UInt64) (r : Rows) :
    (r.apply (c.moves tables t)).apply ((c.renewed t).moves tables t) =
      r.apply (c.moves tables t) := by
  refine Rows.ext_get fun space key => ?_
  let a : Address := ⟨space, key⟩
  show (Rows.apply _ ((c.renewed t).moves tables t)).get a.space a.key =
    (r.apply (c.moves tables t)).get a.space a.key
  rw [Mirrors.get_moves]
  -- Renewed to the same time again the delivery is the same, and so are its key and its timer.
  simp only [show (c.renewed t).renewed t = c.renewed t from rfl,
    show (c.renewed t).key = c.key from rfl]
  by_cases timer : (⟨tables.timers, (c.renewed t).timerKey.encode⟩ : Address) = a
  · rw [if_pos timer, Mirrors.get_moves, if_pos timer]
  rw [if_neg timer, if_neg timer]
  by_cases record : (⟨tables.checkPoints, c.key⟩ : Address) = a
  · rw [if_pos record, Mirrors.get_moves, if_neg timer, if_pos record]
  · rw [if_neg record]

/-! ### The decision of the second try -/

/-- What a second try of an accepted operation answers. -/
def Operation.again (queue : QueueId) : Operation → Except Failure Unit
  | ack a => .error (.checkPointNotFound queue a.target)
  | _ => .ok ()

namespace Ledger

variable {l : Ledger} {r : Rows} {live : Set CheckPoint} {id : UInt64} {op : Operation}
  {d : Decision}

theorem cursor_settle {g : UInt64} {path : Path} {b : Batch} {requests : List Request}
    (ok : (l.settle id g path b requests).outcome = .ok ()) :
    (l.settle id g path b requests).ledger.cursor = some id := by
  unfold settle at ok ⊢
  rcases each : l.commitEach g path b.offsets with ⟨e | _, l'⟩
  · rw [each] at ok
    cases ok
  · rfl

/-- After an operation was accepted it is its turn still. -/
theorem checkTurn_again (decided : replayDecision id op l r = .ok d) (ok : d.outcome = .ok ()) :
    d.ledger.checkTurn id op.queue = .ok () := by
  have again (own : op.queue = l.queue) (cursor : d.ledger.cursor = some id) :
      d.ledger.checkTurn id op.queue = .ok () := by
    unfold checkTurn
    rw [if_pos (own.trans (follows_of_replay decided).queue.symm), cursor]
    exact if_pos (UInt64.le_refl id)
  cases op with
  | pop p =>
    obtain ⟨turn, -, ⟨-, -, rfl⟩ | ⟨-, -, rfl⟩⟩ := popDecision_eq_ok decided
    · exact again (checkTurn_eq_ok turn).1 (cursor_settle ok)
    · exact again (checkTurn_eq_ok turn).1 rfl
  | ack a =>
    obtain ⟨turn, c, -, ⟨-, rfl⟩ | ⟨path, -, -, rfl⟩⟩ := ackDecision_eq_ok decided
    · exact again (checkTurn_eq_ok turn).1 rfl
    · exact again (checkTurn_eq_ok turn).1 (cursor_settle ok)
  | renewal w =>
    obtain ⟨turn, c, -, rfl⟩ := renewDecision_eq_ok decided
    exact again (checkTurn_eq_ok turn).1 rfl

theorem withCursor_eq_self (cursor : l.cursor = some id) : l.withCursor id = l := by
  rw [withCursor, ← cursor]

/-- A delivery whose rows stand meets locks of its own only. -/
theorem unlocked_of_rows {c : CheckPoint}
    (written : ∀ a v, (a, v) ∈ c.rows l.config → r.get a.space a.key = some v) :
    l.unlocked r c = .ok () := by
  refine forM_of_forall fun key hkey => ?_
  obtain ⟨ordered, o, ho, rfl⟩ := CheckPoint.mem_lockKeys.1 hkey
  have row := written _ _ (CheckPoint.lock_mem_rows ordered ho)
  unfold unlockedAt
  rw [show r.get l.config.locks (OrderLock.key c.group c.queue o) = _ from row]
  dsimp only
  rw [OrderLock.owner_value]
  exact if_pos rfl

section

variable {p : Pop} {delivered covered : UInt64 → Path → Set UInt64}

/-- A pop that left a delivery in flight decides to write the same rows. -/
theorem popDecision_of_rows (accounts : l.Accounts delivered covered)
    (known : p.offset ∈ delivered p.group p.kind.path) (turn : l.checkTurn id p.queue = .ok ())
    (cursor : l.cursor = some id) (valid : p.check = .ok ()) (mark : p.endMark = false)
    (written : ∀ a v, (a, v) ∈ (CheckPoint.ofPop id p).rows l.config →
      r.get a.space a.key = some v) :
    popDecision id p l r = .ok ⟨(CheckPoint.ofPop id p).puts l.config, .ok (), l⟩ := by
  have unlocked := unlocked_of_rows written
  unfold popDecision
  rw [turn, valid, mark, unlocked, accounts.deliver_eq_self known, withCursor_eq_self cursor]
  rfl

/-- A pop with an end mark whose batch is recorded decides to do nothing. -/
theorem popDecision_of_covered (accounts : l.Accounts delivered covered)
    (known : p.offset ∈ delivered p.group p.kind.path)
    (recorded : ∀ o ∈ p.batch.offsets, o ∈ covered p.group p.kind.path)
    (turn : l.checkTurn id p.queue = .ok ()) (cursor : l.cursor = some id)
    (valid : p.check = .ok ()) (mark : p.endMark = true) :
    popDecision id p l r = .ok ⟨[], .ok (), l⟩ := by
  have collects := accounts.collects p.group p.kind.path
  have window : l.checkWindow p.group p.kind.path p.batch = .ok () := by
    rw [checkWindow_eq_ok, Watermark.firstOutside_eq, List.find?_eq_none]
    intro o ho
    simp [collects.inWindow_of_mem (recorded o ho)]
  have settled : l.settle id p.group p.kind.path p.batch [] = ⟨[], .ok (), l⟩ := by
    rw [settle, accounts.commitEach_eq_self known recorded]
    dsimp only
    rw [withCursor_eq_self cursor]
  unfold popDecision
  rw [turn, valid, mark, window, accounts.deliver_eq_self known, settled]
  rfl

end

/-- **The second decision.** Where an operation was accepted and carried out, an acknowledgment
finds nothing any more, and any other operation decides to do what changes nothing. -/
theorem replayDecision_again (distinct : l.config.distinct) (filed : Filed l.config l.queue r live)
    (leads : l.Leads live) (ends : (Command.replay id op).Bounded)
    (decided : replayDecision id op l r = .ok d) :
    match op.again l.queue with
    | .error e => replayDecision id op d.ledger (r.apply d.requests) = .error e
    | .ok () => ∃ requests,
        replayDecision id op d.ledger (r.apply d.requests) = .ok ⟨requests, .ok (), d.ledger⟩ ∧
          (r.apply d.requests).apply requests = r.apply d.requests := by
  obtain ⟨delivered, covered, accounts, -, inFlight⟩ := leads
  obtain ⟨ok, after⟩ := accounts.replay filed inFlight ends decided
  have turn := checkTurn_again decided ok
  have next := follows_of_replay decided
  cases op with
  | pop p =>
    have known : p.offset ∈ (delivered ⊔ (Operation.pop p).delivers) p.group p.kind.path :=
      Or.inr ⟨rfl, rfl, rfl⟩
    obtain ⟨-, valid, ⟨mark, -, rfl⟩ | ⟨mark, -, rfl⟩⟩ := popDecision_eq_ok decided
    · refine ⟨[], ?_, rfl⟩
      exact popDecision_of_covered after known (fun o ho => Or.inr ⟨mark, rfl, rfl, ho⟩) turn
        (cursor_settle ok) valid mark
    · refine ⟨_, popDecision_of_rows after known turn rfl valid mark fun a v h => ?_,
        Rows.apply_apply r _⟩
      dsimp only
      rw [Act.puts_eq_replacement]
      refine Act.get_replacement_of_wanted (List.mem_singleton_self _) h fun c' hc' v' h' => ?_
      obtain rfl := List.mem_singleton.1 hc'
      exact CheckPoint.rows_functional distinct h' h
  | ack a =>
    obtain ⟨c, found, requests⟩ := requests_of_ackDecision decided
    obtain ⟨hc, target⟩ := filed.mem_of_found found
    have gone := filed.deletes distinct hc
    rw [← requests, ← next.config, ← next.queue] at gone
    have others : ∀ c' ∈ live \ {c}, c'.operation ≠ a.target := fun c' hc' same =>
      hc'.2 (filed.eq_of_operation hc'.1 hc (same.trans target.symm))
    have missing := gone.found_of_forall_ne others
    rw [next.queue] at missing
    exact replayDecision_of_missing turn rfl missing
  | renewal w =>
    obtain ⟨-, c, found, rfl⟩ := renewDecision_eq_ok decided
    obtain ⟨hc, target⟩ := filed.mem_of_found found
    refine ⟨_, ?_, c.apply_moves_moves l.config w.nextVisible r⟩
    have found' := (filed.moves distinct hc w.nextVisible).found_of_mem
      (l := l.withCursor id) (Or.inl rfl)
    rw [show (c.renewed w.nextVisible).operation = w.target from target] at found'
    show renewDecision id w (l.withCursor id) (r.apply (c.moves l.config w.nextVisible)) = _
    unfold renewDecision
    rw [show (l.withCursor id).checkTurn id w.queue = .ok () from turn, found']
    rfl

end Ledger

/-- Carrying out a decision that changes nothing. -/
theorem Site.Done.idle {s s' : Site} {requests : List Request} {outcome : Except Failure Unit}
    (done : s.Done ⟨requests, outcome, s.ledger⟩ s') (rows : s.rows.apply requests = s.rows) :
    s'.ledger = s.ledger ∧ s'.host.store = s.host.store := by
  refine ⟨done.ledger, done.store.trans ?_⟩
  show { s.host.store with rows := s.rows.apply requests } = s.host.store
  rw [rows]
  rfl

/-! ### The main statement -/

/-- **Trying again is safe.** Start with an empty ledger on a host that answers and has no row of
the queue, with three different tables, and make any calls of a persistent owner: replays at any
operation ids, snapshots, loads of these, and clears. Let an operation be accepted then, which
delivers no message at the last offset. Tried again under the same id, a pop of any kind and a
renewal are accepted, and an acknowledgment fails because its check point is not found; and the
whole ledger (the cursor, and the counters, bases and bitmaps of all groups) and the whole store are
as the first try left them. -/
theorem Reached.retried {queue : QueueId} {config : Config} {host : Host} {m : Moment} {id : UInt64}
    {op : Operation} (distinct : config.distinct)
    (bare : ∀ a, Owned config queue a → host.store.rows.get a.space a.key = none)
    (answers : host.Answers) (run : Reached Moment.Persistent (.start queue config host) m)
    (ends : (Command.replay id op).Bounded) (accepted : (Act.replay id op m.site).1 = .ok ()) :
    let first := (Act.replay id op m.site).2
    let second := Act.replay id op first
    second.1 = op.again queue ∧ second.2.ledger = first.ledger ∧
      second.2.host.store = first.host.store := by
  intro first second
  obtain ⟨live, led⟩ := Moment.led_of_reached distinct bare run
  have answers' := Moment.answers_of_reached answers run
  have does := Act.replay_does id op
  have next := does.of_answers (does.answers answers')
  rcases does.of_answers answers' with ⟨e, -, refused, -⟩ | ⟨d, decided, -, done⟩
  · rw [accepted] at refused
    cases refused
  have again := Ledger.replayDecision_again (led.distinct distinct) led.filed led.leads ends decided
  rw [← done.ledger, ← done.rows, led.queue_eq] at again
  cases expected : op.again queue with
  | error e =>
    rw [expected] at again
    rcases next with ⟨e', decided', answer, quiet⟩ | ⟨d', decided', -, -⟩
    · cases again.symm.trans decided'
      exact ⟨answer, quiet.ledger, quiet.host.store⟩
    · cases again.symm.trans decided'
  | ok _ =>
    rw [expected] at again
    obtain ⟨requests, decided', rows⟩ := again
    rcases next with ⟨e, refused, -, -⟩ | ⟨d', same, answer, idle⟩
    · cases decided'.symm.trans refused
    · cases decided'.symm.trans same
      exact ⟨answer, idle.idle rows⟩

/-- A pop whose record was pushed aside by another one of the same id, and then an end mark in whose
middle the bitmap is re-anchored: tried again, it leaves the base and the mark where they are. -/
theorem Reached.retried_of_rebase :
    let config : Config := { Config.standard with rebaseThreshold := 2 }
    let pop (offset : UInt64) (count : UInt32) (kind : PopKind) (mark : Bool) : Operation :=
      .pop ⟨⟨1, 0⟩, 5, offset, count, kind, 1000, 500, mark, 0⟩
    let popped := (Moment.start ⟨1, 0⟩ config .fresh).after (.replay 1 (pop 9 3 .order false))
    let aside := popped.after (.replay 1 (pop 8 1 .normal false))
    let m := aside.after (.replay 2 (pop 3 2 .normal true))
    let first := (Act.replay 2 (pop 4 5 .normal true) m.site).2
    let second := Act.replay 2 (pop 4 5 .normal true) first
    ((first.ledger.group 5).data.base = 4 ∧ (first.ledger.group 5).data.ackOffset = 5) ∧
      second.1 = .ok () ∧ second.2.ledger = first.ledger ∧
      second.2.host.store = first.host.store := by
  intro config pop popped aside m first second
  have bounded (offset : UInt64) (count : UInt32) (kind : PopKind) (mark : Bool)
      (below : offset < lastOffset) (id : UInt64) :
      (Command.replay id (pop offset count kind mark)).Bounded := below
  have run : Reached Moment.Persistent (.start ⟨1, 0⟩ config .fresh) popped :=
    Reached.start.call (.replay 1 (pop 9 3 .order false)) (bounded 9 3 .order false (by decide) 1)
  have run : Reached Moment.Persistent (.start ⟨1, 0⟩ config .fresh) aside :=
    run.call (.replay 1 (pop 8 1 .normal false)) (bounded 8 1 .normal false (by decide) 1)
  have run : Reached Moment.Persistent (.start ⟨1, 0⟩ config .fresh) m :=
    run.call (.replay 2 (pop 3 2 .normal true)) (bounded 3 2 .normal true (by decide) 2)
  have accepted : (Act.replay 2 (pop 4 5 .normal true) m.site).1 = .ok () := by decide +kernel
  have marks :
      (first.ledger.group 5).data.base = 4 ∧ (first.ledger.group 5).data.ackOffset = 5 := by
    decide +kernel
  -- From here on only these facts count, and not how the moment came about.
  clear_value m
  exact ⟨marks, Reached.retried (by decide) (by simp) (fun _ _ => rfl) run
    (bounded 4 5 .normal true (by decide) 2) accepted⟩

end QueueLedger
