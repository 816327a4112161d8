import QueueLedger.Proofs.Alike
import QueueLedger.Proofs.Atomicity
import QueueLedger.Proofs.EveryGroup
/-!
# Loading a snapshot from elsewhere

Before it writes anything, loading checks that the bitmaps of a snapshot can be read and that its
check points are of the queue, and nothing else (`Act.loadSnapshot_accepts_iff`). A snapshot that a
ledger has taken needs no more. One that comes from elsewhere does: with two check points of one
operation, with two ordered ones that share an offset, or with a base past the ack offset, it is
accepted too, and leaves tables that are not coherent, or a group that fails at its next
acknowledgment (`Act.loadSnapshot_accepts_inconsistent`).

These three are all that can go wrong. Two check points that collide always do
(`Act.loadSnapshot_coherent_iff`), and so does a base past the ack offset, with which nothing can be
recorded (`Watermark.commit_of_base_gt`). A snapshot without them (`Snapshot.Consistent`) brings the
queue into service in a sound state, and it stays in service soundly whatever is called then, as
long as only such snapshots are loaded (`Act.loadSnapshot_sound`).

## Proof shape

Coherent tables mirror the check points that stand in them (`Coherent.mirrors`), so loading replaces
these by those of the snapshot as it does in any orderly run (`Mirrors.load`).

For the arithmetic the invariant is that no base is above its ack offset. It is a property of
groups that lasts (`Group.grounded_lasting`), and under it the only commit that leaves the range is
one that would carry the mark past the last word (`Watermark.commit_of_base_le`). The checks of a
call do not calculate at all (`Command.decision_ne_outOfRange`).
-/

namespace QueueLedger

/-! ### Coherent tables -/

/-- Coherent tables mirror the check points that stand in them. -/
theorem Coherent.mirrors {tables : Config} {q : QueueId} {r : Rows} (distinct : tables.distinct)
    (h : Coherent tables q r) : Mirrors tables q r {c | Standing tables q r c} := by
  obtain ⟨ct, cl, tl⟩ := distinct
  refine ⟨fun c hc => hc.1, ?_⟩
  rintro ⟨space, key⟩ v (⟨rfl, stem⟩ | ⟨rfl, due, operation, rfl⟩ | ⟨rfl, group, offset, rfl⟩)
  · constructor
    · intro row
      obtain ⟨c, standing, rfl, rfl⟩ := h.checkPoints key v stem row
      exact ⟨c, standing, CheckPoint.mem_rows.2 (Or.inl ⟨rfl, rfl⟩)⟩
    · rintro ⟨c, standing, row⟩
      rcases CheckPoint.mem_rows.1 row with ⟨ha, rfl⟩ | ⟨ha, -⟩ | ⟨-, o, -, ha, -⟩
      · cases ha
        exact standing.2
      · exact absurd (Address.mk.inj ha).1 ct
      · exact absurd (Address.mk.inj ha).1 cl
  · refine (h.timers due operation v).trans ?_
    constructor
    · rintro ⟨c, standing, timer, rfl⟩
      exact ⟨c, standing, CheckPoint.mem_rows.2 (Or.inr (Or.inl ⟨by rw [timer], rfl⟩))⟩
    · rintro ⟨c, standing, row⟩
      rcases CheckPoint.mem_rows.1 row with ⟨ha, -⟩ | ⟨ha, hv⟩ | ⟨-, o, -, ha, -⟩
      · exact absurd (Address.mk.inj ha).1.symm ct
      · exact ⟨c, standing, (TimerKey.encode_inj.1 (Address.mk.inj ha).2).symm, hv⟩
      · exact absurd (Address.mk.inj ha).1 tl
  · refine (h.locks group offset v).trans ?_
    constructor
    · rintro ⟨c, standing, ordered, rfl, ho, rfl⟩
      refine ⟨c, standing, CheckPoint.mem_rows.2 (Or.inr (Or.inr ⟨ordered, offset, ho, ?_, rfl⟩))⟩
      rw [standing.1]
    · rintro ⟨c, standing, row⟩
      rcases CheckPoint.mem_rows.1 row with ⟨ha, -⟩ | ⟨ha, -⟩ | ⟨ordered, o, ho, ha, hv⟩
      · exact absurd (Address.mk.inj ha).1.symm cl
      · exact absurd (Address.mk.inj ha).1.symm tl
      · obtain ⟨rfl, -, rfl⟩ := OrderLock.key_inj.1 (Address.mk.inj ha).2
        exact ⟨c, standing, ordered, rfl, ho, hv⟩

/-- In coherent tables no operation has two timers. -/
theorem Coherent.due_eq {tables : Config} {q : QueueId} {r : Rows} (h : Coherent tables q r)
    {due due' operation : UInt64} {v v' : Bytes}
    (row : r.get tables.timers (TimerKey.encode ⟨due, q, operation⟩) = some v)
    (row' : r.get tables.timers (TimerKey.encode ⟨due', q, operation⟩) = some v') : due = due' := by
  obtain ⟨c, standing, timer, -⟩ := (h.timers due operation v).1 row
  obtain ⟨c', standing', timer', -⟩ := (h.timers due' operation v').1 row'
  obtain ⟨rfl, rfl, rfl⟩ := TimerKey.mk.inj timer
  obtain ⟨rfl, queue, operation⟩ := TimerKey.mk.inj timer'
  have same : c'.key = c.key := by rw [CheckPoint.key, CheckPoint.key, queue, operation]
  rw [standing'.eq_of_key standing same]

/-- Check points of a list stay out of each other's way if those that collide are the same. -/
theorem apart_of_collides {tables : Config} {cs : List CheckPoint} (distinct : tables.distinct)
    (h : ∀ c ∈ cs, ∀ c' ∈ cs, c.Collides c' → c = c') : Apart tables {c | c ∈ cs} :=
  fun c hc c' hc' _ _ _ row row' => h c hc c' hc' (CheckPoint.collides_of_rows distinct row row')

/-! ### Bases at or below the ack offset -/

namespace Group

variable {s : Group}

/-- No base is above its ack offset. -/
def Grounded (s : Group) : Prop := ∀ path, (s.watermark path).base ≤ (s.watermark path).ackOffset

theorem grounded_lasting (threshold : UInt64) : Lasting threshold fun _ s => s.Grounded where
  fresh g path := (sound_fresh g threshold path).base_le
  advance h path next other := by
    rw [watermark_advance]
    exact h other
  commit h ok other := by
    obtain ⟨committed, marks⟩ := watermark_of_commit ok
    rw [marks]
    split
    · exact Watermark.base_le_of_commit (h _) committed
    · exact h other

end Group

namespace Ledger

variable {l l' : Ledger} {g : UInt64} {path : Path}

/-- No base of any group is above its ack offset. -/
def Grounded (l : Ledger) : Prop := l.Every fun _ s => s.Grounded

theorem Grounded.group (h : l.Grounded) (g : UInt64) : (l.group g).Grounded :=
  Every.group (Group.grounded_lasting _) h g

/-- Recording acknowledgments leaves the range only where a mark would have to pass the last
word. -/
theorem Grounded.full_of_commitEach {os : List UInt64} (h : l.Grounded)
    (failed : l.commitEach g path os = (.error .outOfRange, l')) :
    ∃ o ∈ os, ((l'.group g).watermark path).Full o := by
  induction os generalizing l with
  | nil => cases failed
  | cons o os ih =>
    rw [Ledger.commitEach] at failed
    unfold Ledger.commit at failed
    cases hc : (l.group g).commit path o with
    | error e =>
      rw [hc] at failed
      cases failed
      refine ⟨o, List.mem_cons_self, ?_⟩
      have ends := Watermark.commit_of_base_le (h.group g path) o
      rw [Group.commit_error_iff.1 hc] at ends
      obtain ⟨c, eq, -⟩ | eq | ⟨-, full⟩ := ends
      · cases eq
      · cases eq
      · exact full
    | ok r =>
      rw [hc] at failed
      have kept : (l.withGroup g r.1).Grounded :=
        Every.withGroup h <|
          (Group.grounded_lasting l.config.rebaseThreshold).commit (g := g) (h.group g) hc
      obtain ⟨o', ho', full⟩ := ih kept failed
      exact ⟨o', List.mem_cons_of_mem o ho', full⟩

theorem Grounded.full_of_settle {id : UInt64} {b : Batch} {requests : List Request}
    (h : l.Grounded) (failed : (l.settle id g path b requests).outcome = .error .outOfRange) :
    ∃ o, (((l.settle id g path b requests).ledger.group g).watermark path).Full o := by
  unfold Ledger.settle at failed ⊢
  rcases hc : l.commitEach g path b.offsets with ⟨e | _, l''⟩
  · rw [hc] at failed
    cases failed
    obtain ⟨o, -, full⟩ := h.full_of_commitEach hc
    exact ⟨o, full⟩
  · rw [hc] at failed
    cases failed

end Ledger

/-! ### Checks do not calculate -/

theorem CheckPoint.decode_ne_outOfRange (bytes : Bytes) :
    CheckPoint.decode bytes ≠ .error .outOfRange := by
  unfold CheckPoint.decode CheckPoint.ofFields
  split
  · dsimp only
    split
    · nofun
    · split <;> nofun
  · nofun

namespace Ledger

theorem checkTurn_ne_outOfRange (l : Ledger) (id : UInt64) (queue : QueueId) :
    l.checkTurn id queue ≠ .error .outOfRange := by
  unfold checkTurn
  split
  · split
    · nofun
    · split <;> nofun
  · nofun

theorem found_ne_outOfRange (l : Ledger) (r : Rows) (id : UInt64) :
    l.found r id ≠ .error .outOfRange := by
  unfold found
  split
  · exact CheckPoint.decode_ne_outOfRange _
  · nofun

theorem scanned_ne_outOfRange (l : Ledger) (r : Rows) : l.scanned r ≠ .error .outOfRange :=
  mapM_ne_error (fun row : Bytes × Bytes => CheckPoint.decode_ne_outOfRange row.2) _

theorem unlocked_ne_outOfRange (l : Ledger) (r : Rows) (c : CheckPoint) :
    l.unlocked r c ≠ .error .outOfRange := by
  refine forM_ne_error (fun key => ?_) _
  unfold unlockedAt
  split
  · nofun
  next value _ =>
    refine bind_ne_error ?_ fun owner => ?_
    · unfold OrderLock.owner
      split <;> nofun
    · split <;> nofun

theorem restoreGroups_ne_outOfRange (config : Config) (images : List GroupImage) :
    restoreGroups config images ≠ .error .outOfRange := by
  rw [restoreGroups_eq]
  refine foldlM_ne_error (fun groups i => ?_) images ∅
  unfold putImage Group.restore Watermark.restore
  cases Bitmap.decode? i.bitmap <;> cases Bitmap.decode? i.retryBitmap <;> nofun

theorem checkOwn_ne_outOfRange (queue : QueueId) (cs : List CheckPoint) :
    checkOwn queue cs ≠ .error .outOfRange := by
  unfold checkOwn
  split <;> nofun

end Ledger

namespace Command

open Ledger

/-- No call is refused for arithmetic before it changes something. -/
theorem decision_ne_outOfRange (c : Command) (l : Ledger) (r : Rows) :
    c.decision l r ≠ .error .outOfRange := by
  match c with
  | .replay id (.pop p) =>
    have valid : p.check ≠ .error .outOfRange := by
      unfold Pop.check
      split
      · nofun
      · split <;> nofun
    refine bind_ne_error (l.checkTurn_ne_outOfRange id p.queue) fun _ =>
      bind_ne_error valid fun _ => ?_
    split
    · exact bind_ne_error (checkWindow_ne_error nofun) fun _ => nofun
    · exact bind_ne_error (l.unlocked_ne_outOfRange r (.ofPop id p)) fun _ => nofun
  | .replay id (.ack a) =>
    refine bind_ne_error (l.checkTurn_ne_outOfRange id a.queue) fun _ =>
      bind_ne_error (l.found_ne_outOfRange r a.target) fun c => ?_
    split
    · nofun
    next path _ =>
      exact bind_ne_error (checkWindow_ne_error nofun) fun _ => nofun
  | .replay id (.renewal w) =>
    exact bind_ne_error (l.checkTurn_ne_outOfRange id w.queue) fun _ =>
      bind_ne_error (l.found_ne_outOfRange r w.target) fun _ => nofun
  | .takeSnapshot => exact bind_ne_error (l.scanned_ne_outOfRange r) fun _ => nofun
  | .load s =>
    exact bind_ne_error (restoreGroups_ne_outOfRange l.config s.groups) fun _ =>
      bind_ne_error (checkOwn_ne_outOfRange l.queue s.checkPoints) fun _ =>
      bind_ne_error (l.scanned_ne_outOfRange r) fun _ => nofun
  | .clear => exact bind_ne_error (l.scanned_ne_outOfRange r) fun _ => nofun
  | .release s => nofun

/-- What is decided on a grounded ledger ends in a failure of arithmetic only where a mark would
have to pass the last word. -/
theorem full_of_outcome {c : Command} {l : Ledger} {r : Rows} {d : Decision} (h : l.Grounded)
    (decided : c.decision l r = .ok d) (failed : d.outcome = .error .outOfRange) :
    ∃ g path o, ((d.ledger.group g).watermark path).Full o := by
  match c with
  | .replay id (.pop p) =>
    obtain ⟨-, -, ⟨-, -, rfl⟩ | ⟨-, -, rfl⟩⟩ := popDecision_eq_ok decided
    · have delivered : (l.deliver p.group p.kind.path p.offset).Grounded :=
        Every.deliver (Group.grounded_lasting _) h p.group p.kind.path p.offset
      exact ⟨_, _, delivered.full_of_settle failed⟩
    · cases failed
  | .replay id (.ack a) =>
    obtain ⟨-, c, -, ⟨-, rfl⟩ | ⟨path, -, -, rfl⟩⟩ := ackDecision_eq_ok decided
    · cases failed
    · exact ⟨_, _, h.full_of_settle failed⟩
  | .replay id (.renewal w) =>
    obtain ⟨-, c, -, rfl⟩ := renewDecision_eq_ok decided
    cases failed
  | .takeSnapshot =>
    obtain ⟨existing, -, decided⟩ := bind_eq_ok.1 (show l.scanned r >>= _ = _ from decided)
    cases decided
    cases failed
  | .load s =>
    obtain ⟨groups, existing, -, -, -, rfl⟩ := loadDecision_eq_ok decided
    cases failed
  | .clear =>
    obtain ⟨existing, -, rfl⟩ := clearDecision_eq_ok decided
    cases failed
  | .release s =>
    cases decided
    cases failed

end Command

/-! ### Loading -/

/-- A snapshot that a queue can be brought into service with. -/
structure Snapshot.Consistent (s : Snapshot) : Prop where
  /-- Two check points of one operation, or two ordered ones of one group with an offset in common,
  are the same. -/
  single : ∀ c ∈ s.checkPoints, ∀ c' ∈ s.checkPoints, c.Collides c' → c = c'
  /-- No base is above the ack offset of its path. -/
  bases : ∀ i ∈ s.groups, i.base ≤ i.counters.ack ∧ i.retryBase ≤ i.counters.retryAck

instance (s : Snapshot) : Decidable s.Consistent :=
  decidable_of_iff ((∀ c ∈ s.checkPoints, ∀ c' ∈ s.checkPoints, c.Collides c' → c = c') ∧
      ∀ i ∈ s.groups, i.base ≤ i.counters.ack ∧ i.retryBase ≤ i.counters.retryAck)
    ⟨fun ⟨single, bases⟩ => ⟨single, bases⟩, fun h => ⟨h.single, h.bases⟩⟩

/-- The groups of a consistent snapshot are restored with no base above its ack offset. -/
theorem Snapshot.Consistent.grounded {s : Snapshot} (h : s.Consistent) {i : GroupImage}
    (hi : i ∈ s.groups) {threshold : UInt64} {g : Group}
    (restored : Group.restore i threshold = .ok g) : g.Grounded := by
  obtain ⟨data, retry⟩ := h.bases i hi
  obtain ⟨bits, bits', -, -, rfl⟩ := Group.restore_eq_ok restored
  intro path
  cases path
  · exact data
  · exact retry

/-- The policy to load consistent snapshots only. All other calls are free. -/
def Moment.LoadsConsistent (_ : Moment) (c : Command) : Prop := ∀ s, c = .load s → s.Consistent

namespace Command

variable {c : Command} {s : Site}

/-- A call keeps the ledger grounded if what it loads is consistent. -/
theorem grounded_act (h : s.ledger.Grounded) (consistent : ∀ snapshot, c = .load snapshot →
    snapshot.Consistent) : (c.act s).2.ledger.Grounded := by
  rcases c.act_cases s with ⟨e, -, quiet, -⟩ | ⟨d, decided, -, moves⟩
  · rw [quiet.ledger]
    exact h
  · rw [moves.ledger]
    refine every_of_decision (Group.grounded_lasting _) h (fun snapshot load i hi g restored => ?_)
      decided
    exact (consistent snapshot load).grounded hi restored

/-- On a grounded ledger a call fails for arithmetic only where a mark would have to pass the last
word. -/
theorem full_of_act (h : s.ledger.Grounded) (failed : (c.act s).1 = .error .outOfRange) :
    ∃ g path o, (((c.act s).2.ledger.group g).watermark path).Full o := by
  rcases c.act_cases s with ⟨e, answer, -, decided | ⟨-, fault, rfl⟩⟩ | ⟨d, decided, answer, moves⟩
  · rw [failed] at answer
    cases answer
    exact absurd decided (c.decision_ne_outOfRange s.ledger s.rows)
  · rw [failed] at answer
    cases answer
  · rw [failed] at answer
    rw [moves.ledger]
    exact full_of_outcome h decided answer.symm

end Command

namespace Act

variable {s : Site} {snapshot : Snapshot}

/-- What an accepted snapshot has passed, and what is then in its place. -/
theorem loadSnapshot_eq_ok (accepted : (loadSnapshot snapshot s).1 = .ok ()) :
    let loaded := (loadSnapshot snapshot s).2
    ∃ existing, s.ledger.scanned s.rows = .ok existing ∧
      (∀ c ∈ snapshot.checkPoints, c.queue = s.ledger.queue) ∧
      Ledger.restoreGroups s.ledger.config snapshot.groups = .ok loaded.ledger.groups ∧
      loaded.rows = s.rows.apply (replacement s.ledger.config
        (Ledger.outdated existing snapshot.checkPoints) snapshot.checkPoints) := by
  obtain ⟨e, answer, -⟩ | ⟨d, decided, -, done⟩ := loadSnapshot_does snapshot s
  · rw [accepted] at answer
    cases answer
  · obtain ⟨groups, existing, restored, own, scan, rfl⟩ := Ledger.loadDecision_eq_ok decided
    refine ⟨existing, scan, Ledger.checkOwn_iff.1 own, ?_, done.rows⟩
    rw [done.ledger]
    exact restored

/-- What loading checks. With coherent tables and a store that answers, it accepts exactly the
snapshots whose bitmaps can be read and whose check points are of the queue. -/
theorem loadSnapshot_accepts_iff (distinct : s.ledger.config.distinct)
    (coherent : Coherent s.ledger.config s.ledger.queue s.rows) (answers : s.host.Answers) :
    (loadSnapshot snapshot s).1 = .ok () ↔
      (∀ i ∈ snapshot.groups, i.Readable) ∧
        ∀ c ∈ snapshot.checkPoints, c.queue = s.ledger.queue := by
  constructor
  · intro accepted
    obtain ⟨existing, -, own, restored, -⟩ := loadSnapshot_eq_ok accepted
    exact ⟨Ledger.restoreGroups_iff.1 ⟨_, restored⟩, own⟩
  · rintro ⟨bitmaps, own⟩
    obtain ⟨groups, restored⟩ := Ledger.restoreGroups_iff.2 bitmaps
    obtain ⟨existing, scan, -⟩ := (coherent.mirrors distinct).scanned distinct
    have decided : Ledger.loadDecision snapshot s.ledger s.rows = .ok _ :=
      bind_eq_ok.2 ⟨groups, restored, bind_eq_ok.2 ⟨(), Ledger.checkOwn_iff.2 own,
        bind_eq_ok.2 ⟨existing, scan, rfl⟩⟩⟩
    rcases (loadSnapshot_does snapshot).of_answers answers with
      ⟨e, refused, -⟩ | ⟨d, done, answer, -⟩
    · rw [decided] at refused
      cases refused
    · rw [decided] at done
      cases done
      exact answer

/-- A snapshot that is refused has changed nothing. -/
theorem unchanged_of_loadSnapshot {e : Failure} (refused : (loadSnapshot snapshot s).1 = .error e) :
    (loadSnapshot snapshot s).2.rows = s.rows ∧ (loadSnapshot snapshot s).2.ledger = s.ledger := by
  obtain ⟨-, -, quiet, -⟩ | ⟨d, decided, answer, -⟩ := loadSnapshot_does snapshot s
  · exact ⟨quiet.rows, quiet.ledger⟩
  · obtain ⟨groups, existing, -, -, -, rfl⟩ := Ledger.loadDecision_eq_ok decided
    rw [refused] at answer
    cases answer

/-- The groups of a consistent snapshot are in range. -/
theorem grounded_loadSnapshot (consistent : snapshot.Consistent)
    (accepted : (loadSnapshot snapshot s).1 = .ok ()) :
    (loadSnapshot snapshot s).2.ledger.Grounded := by
  obtain ⟨existing, -, -, restored, -⟩ := loadSnapshot_eq_ok accepted
  exact Ledger.every_of_restoreGroups (fun i hi g restored => consistent.grounded hi restored)
    restored

/-- Without collisions the check points of an accepted snapshot are in the place of the live
ones. -/
theorem loadSnapshot_remirrors (distinct : s.ledger.config.distinct)
    (coherent : Coherent s.ledger.config s.ledger.queue s.rows)
    (single : ∀ c ∈ snapshot.checkPoints, ∀ c' ∈ snapshot.checkPoints, c.Collides c' → c = c')
    (accepted : (loadSnapshot snapshot s).1 = .ok ()) :
    Remirrors s.ledger.config s.ledger.queue s.rows (loadSnapshot snapshot s).2.rows
      {c | c ∈ snapshot.checkPoints} := by
  obtain ⟨existing, scan, own, -, rows⟩ := loadSnapshot_eq_ok accepted
  rw [rows]
  exact (coherent.mirrors distinct).load distinct own (apart_of_collides distinct single) scan

/-- Collisions are exactly what keeps the tables from holding the check points of an accepted
snapshot coherently. -/
theorem loadSnapshot_coherent_iff (distinct : s.ledger.config.distinct)
    (coherent : Coherent s.ledger.config s.ledger.queue s.rows)
    (accepted : (loadSnapshot snapshot s).1 = .ok ()) :
    let loaded := (loadSnapshot snapshot s).2
    (Coherent s.ledger.config s.ledger.queue loaded.rows ∧
        ∀ c, Standing s.ledger.config s.ledger.queue loaded.rows c ↔ c ∈ snapshot.checkPoints) ↔
      ∀ c ∈ snapshot.checkPoints, ∀ c' ∈ snapshot.checkPoints, c.Collides c' → c = c' := by
  intro loaded
  constructor
  · rintro ⟨sound, standing⟩ c hc c' hc' collide
    exact (sound.mirrors distinct).eq_of_collides ((standing c).2 hc) ((standing c').2 hc') collide
  · intro single
    have re := loadSnapshot_remirrors distinct coherent single accepted
    exact ⟨re.mirrors.coherent distinct, fun c => (re.mirrors.mem_iff distinct).symm⟩

/-- **A consistent snapshot brings a queue into service in a sound state.** Let the tables of the
queue be coherent. Then a store that answers accepts exactly the snapshots whose bitmaps can be read
and whose check points are of the queue; and one that is refused, for whatever reason, has changed
neither the rows nor the ledger.

Let the snapshot be consistent as well, and accepted. Then the tables are coherent again, the live
check points are those of the snapshot, and the rows of others are untouched. After any calls from
then on that load no other than consistent snapshots, no base is above its ack offset, so a commit
succeeds, or its offset is outside the window, or every offset from the mark to the last word is
recorded; and no call fails for arithmetic in any other case. -/
theorem loadSnapshot_sound {s : Site} {snapshot : Snapshot} (distinct : s.ledger.config.distinct)
    (coherent : Coherent s.ledger.config s.ledger.queue s.rows) (consistent : snapshot.Consistent) :
    let answer := (loadSnapshot snapshot s).1
    let loaded := (loadSnapshot snapshot s).2
    (s.host.Answers → (answer = .ok () ↔ (∀ i ∈ snapshot.groups, i.Readable) ∧
      ∀ c ∈ snapshot.checkPoints, c.queue = s.ledger.queue)) ∧
    (∀ e, answer = .error e → loaded.rows = s.rows ∧ loaded.ledger = s.ledger) ∧
    (answer = .ok () →
      Coherent s.ledger.config s.ledger.queue loaded.rows ∧
      (∀ c, Standing s.ledger.config s.ledger.queue loaded.rows c ↔ c ∈ snapshot.checkPoints) ∧
      (∀ a, ¬ Owned s.ledger.config s.ledger.queue a →
        loaded.rows.get a.space a.key = s.rows.get a.space a.key) ∧
      ∀ m, Reached Moment.LoadsConsistent ⟨loaded, []⟩ m →
        (∀ g path o,
          let w := (m.site.ledger.group g).watermark path
          w.base ≤ w.ackOffset ∧
            ((∃ c, w.commit o = .ok c) ∨ w.commit o = .error (.ackWindowOverflow o w.ackOffset) ∨
              (w.commit o = .error .outOfRange ∧ w.Full o))) ∧
        ∀ c : Command, (c.act m.site).1 = .error .outOfRange →
          ∃ g path o, (((c.act m.site).2.ledger.group g).watermark path).Full o) := by
  intro answer loaded
  refine ⟨loadSnapshot_accepts_iff distinct coherent, fun e => unchanged_of_loadSnapshot,
    fun accepted => ?_⟩
  obtain ⟨sound, standing⟩ :=
    (loadSnapshot_coherent_iff distinct coherent accepted).2 consistent.single
  have frame := (loadSnapshot_remirrors distinct coherent consistent.single accepted).frame
  refine ⟨sound, standing, frame, fun m run => ?_⟩
  have kept : m.site.ledger.Grounded := by
    refine run.induction (motive := fun m => m.site.ledger.Grounded) ?_ fun m c h may => ?_
    · exact grounded_loadSnapshot consistent accepted
    · rw [Moment.after_site]
      exact Command.grounded_act h may
  refine ⟨fun g path o => ⟨kept.group g path, ?_⟩, fun c => Command.full_of_act kept⟩
  rcases Watermark.commit_of_base_le (kept.group g path) o with ⟨c, eq, -⟩ | far | full
  · exact Or.inl ⟨c, eq⟩
  · exact Or.inr (Or.inl far)
  · exact Or.inr (Or.inr full)

/-- One check point of two ordered messages and one of another group, and a group with offset 9
recorded ahead of its mark at 8; then offset 8 is acknowledged. -/
theorem loadSnapshot_sound_settled :
    let site : Site := ⟨.empty ⟨1, 0⟩ .standard, .fresh⟩
    let empty : Bytes := [58, 48, 0, 0, 0, 0, 0, 0]
    let four : Bytes := [58, 48, 0, 0, 1, 0, 0, 0, 0, 0, 0, 0, 16, 0, 0, 0, 4, 0]
    let snapshot : Snapshot := ⟨some 2, 0, [⟨⟨5, 12, 8, 0, 0⟩, 5, four, 0, empty⟩],
      [⟨⟨1, 0⟩, 11, 2, 5, 1, .order, 1000, 1500, 0⟩, ⟨⟨1, 0⟩, 9, 1, 6, 2, .normal, 1000, 1500, 0⟩]⟩
    let loaded := (loadSnapshot snapshot site).2
    let settle : Command := .replay 3 (.pop ⟨⟨1, 0⟩, 5, 8, 1, .normal, 2000, 500, true, 0⟩)
    let settled : Moment := Moment.after ⟨loaded, []⟩ settle
    let w := (settled.site.ledger.group 5).watermark .data
    Coherent .standard ⟨1, 0⟩ loaded.rows ∧ loaded.rows.size = 6 ∧ w.base ≤ w.ackOffset ∧
      w.ackOffset = 10 := by
  intro site empty four snapshot loaded settle settled w
  have bare : Coherent .standard ⟨1, 0⟩ site.rows :=
    (Mirrors.of_none fun a _ => Host.get_fresh a.space a.key).coherent (by decide)
  have accepted : (loadSnapshot snapshot site).1 = .ok () := by decide +kernel
  have consistent : snapshot.Consistent := by decide +kernel
  obtain ⟨sound, -, -, later⟩ :=
    (loadSnapshot_sound (s := site) (by decide) bare consistent).2.2 accepted
  have run : Reached Moment.LoadsConsistent ⟨loaded, []⟩ settled := Reached.start.call settle nofun
  exact ⟨sound, by decide +kernel, ((later settled run).1 5 .data 0).1, by decide +kernel⟩

/-- What loading does not check, at a queue that was never used. Of two check points of one
operation both timers are left; of two ordered ones that share an offset the lock is left to the
second only; and with a base past the ack offset the next acknowledgment fails for arithmetic. -/
theorem loadSnapshot_accepts_inconsistent :
    let q : QueueId := ⟨1, 0⟩
    let site : Site := ⟨.empty q .standard, .fresh⟩
    let load (checkPoints : List CheckPoint) (groups : List GroupImage) :=
      loadSnapshot ⟨some 2, 0, groups, checkPoints⟩ site
    let delivery (operation : UInt64) (kind : PopKind) (due : UInt64) : CheckPoint :=
      ⟨q, 9, 1, 5, operation, kind, 1000, due, 0⟩
    let twice := load [delivery 1 .normal 1500, delivery 1 .normal 1700] []
    let shared := load [delivery 1 .order 1500, delivery 2 .order 1500] []
    let empty : Bytes := [58, 48, 0, 0, 0, 0, 0, 0]
    let ahead := load [] [⟨⟨5, 0, 0, 0, 0⟩, 5, empty, 0, empty⟩]
    let settle : Command := .replay 3 (.pop ⟨q, 5, 5, 1, .normal, 2000, 500, true, 0⟩)
    Coherent .standard q site.rows ∧
      (twice.1 = .ok () ∧ ¬ Coherent .standard q twice.2.rows) ∧
      (shared.1 = .ok () ∧ ¬ Coherent .standard q shared.2.rows) ∧
      (ahead.1 = .ok () ∧ (settle.act ahead.2).1 = .error .outOfRange) := by
  intro q site load delivery twice shared empty ahead settle
  have bare : Coherent .standard q site.rows :=
    (Mirrors.of_none fun a _ => Host.get_fresh a.space a.key).coherent (by decide)
  refine ⟨bare, ⟨by decide +kernel, ?_⟩, ⟨by decide +kernel, ?_⟩, by decide +kernel,
    by decide +kernel⟩
  · intro sound
    have early : twice.2.rows.get Config.standard.timers (TimerKey.encode ⟨1500, q, 1⟩) =
        some (delivery 1 .normal 1500).receipt.encode := by decide +kernel
    have late : twice.2.rows.get Config.standard.timers (TimerKey.encode ⟨1700, q, 1⟩) =
        some (delivery 1 .normal 1700).receipt.encode := by decide +kernel
    exact absurd (sound.due_eq early late) (by decide)
  · intro sound
    have lock : shared.2.rows.get Config.standard.locks (OrderLock.key 5 q 9) =
        some (OrderLock.value 2) := by decide +kernel
    have standing : Standing .standard q shared.2.rows (delivery 1 .order 1500) :=
      ⟨rfl, by decide +kernel⟩
    have own := (sound.locks 5 9 (OrderLock.value 1)).2
      ⟨delivery 1 .order 1500, standing, rfl, rfl, by decide +kernel, rfl⟩
    rw [lock] at own
    exact absurd own (by decide)

end Act

end QueueLedger
