import QueueLedger.Proofs.Run
import QueueLedger.Proofs.Watermark
/-!
# A failed call changes nothing

By the time a call sends its batch all checks are behind it, but acknowledgments are recorded
after the batch, one by one, and each of them can fail. They do not: the window was checked for
the whole batch against the mark as it was, the mark only rises, and so every offset of the batch
is still inside when its turn comes (`Ledger.Sound.commitEach`).

## Proof shape

`Ledger.Sound` lifts the invariant of watermarks to all groups. `Ledger.Sound.commit` is the step,
`Ledger.Sound.commitEach` the induction over a batch. With it no decision has a failure for its
outcome (`Command.outcome_of_sound`), and a call that does not carry out a decision is quiet.
-/

namespace QueueLedger

namespace Group

/-- Commits work on both watermarks. -/
def Sound (g : Group) : Prop := ∀ path, (g.watermark path).Sound

theorem sound_fresh (group threshold : UInt64) : (fresh group threshold).Sound
  | .data => Watermark.sound_start 0 threshold
  | .retry => Watermark.sound_start 0 threshold

/-- A group commits what the watermark of the path commits, and keeps the other watermark. -/
theorem commit_of_watermark {g : Group} {path : Path} {o : UInt64} {c : Watermark.Commit}
    (ok : (g.watermark path).commit o = .ok c) :
    ∃ g', g.commit path o = .ok (g', c) ∧
      ∀ other, g'.watermark other = if path = other then c.next else g.watermark other := by
  rw [commit, ok]
  dsimp only
  cases c.advanced with
  | none => exact ⟨_, rfl, fun other => watermark_withWatermark g path other c.next⟩
  | some mark =>
    refine ⟨_, rfl, fun other => ?_⟩
    rw [watermark_withCounters, watermark_withWatermark]

/-- A group commits exactly if the watermark of the path does. -/
theorem watermark_of_commit {g g' : Group} {path : Path} {o : UInt64} {c : Watermark.Commit}
    (ok : g.commit path o = .ok (g', c)) :
    (g.watermark path).commit o = .ok c ∧
      ∀ other, g'.watermark other = if path = other then c.next else g.watermark other := by
  cases hc : (g.watermark path).commit o with
  | error e =>
    rw [commit, hc] at ok
    cases ok
  | ok c' =>
    obtain ⟨g', done, marks⟩ := commit_of_watermark hc
    rw [ok] at done
    cases done
    exact ⟨rfl, marks⟩

theorem commit_error_iff {g : Group} {path : Path} {o : UInt64} {e : Failure} :
    g.commit path o = .error e ↔ (g.watermark path).commit o = .error e := by
  unfold commit
  cases (g.watermark path).commit o with
  | error e' => simp
  | ok c =>
    cases moved : c.advanced <;> simp [moved]

end Group

namespace Ledger

variable {l : Ledger} {g : UInt64} {path : Path}

/-- Commits work on the watermarks of every group. -/
def Sound (l : Ledger) : Prop := ∀ g s, l.groups.get? g = some s → s.Sound

theorem sound_empty (queue : QueueId) (config : Config) : (empty queue config).Sound := by
  intro g s known
  simp [empty] at known

/-- They work on a group that is not known yet, too. -/
theorem Sound.group (sound : l.Sound) (g : UInt64) : (l.group g).Sound := by
  rcases l.group_cases g with known | fresh
  · exact sound g (l.group g) known
  · rw [fresh]
    exact Group.sound_fresh g l.config.rebaseThreshold

theorem Sound.withGroup (sound : l.Sound) {s : Group} (hs : s.Sound) : (l.withGroup g s).Sound := by
  intro h s' known
  rcases get?_insert_cases known with ⟨-, rfl⟩ | known
  · exact hs
  · exact sound h s' known

theorem Sound.deliver (sound : l.Sound) (g : UInt64) (path : Path) (o : UInt64) :
    (l.deliver g path o).Sound := by
  refine sound.withGroup fun other => ?_
  rw [Group.watermark_advance]
  exact sound.group g other

/-- A delivery moves no watermark of any group. -/
theorem watermark_group_deliver (l : Ledger) (g : UInt64) (path : Path) (o g' : UInt64)
    (other : Path) :
    ((l.deliver g path o).group g').watermark other = (l.group g').watermark other := by
  rw [Ledger.deliver, group_withGroup]
  split
  next same => rw [← same, Group.watermark_advance]
  next => rfl

theorem watermark_deliver (l : Ledger) (g : UInt64) (path other : Path) (o : UInt64) :
    ((l.deliver g path o).group g).watermark other = (l.group g).watermark other :=
  l.watermark_group_deliver g path o g other

/-- Recording an offset inside the window succeeds, and the mark does not fall. -/
theorem Sound.commit (sound : l.Sound) {o : UInt64} (ho : o < lastOffset)
    (inside : ((l.group g).watermark path).inWindow o = true) :
    ∃ l' c, l.commit g path o = .ok (l', c) ∧ l'.Sound ∧
      ((l.group g).watermark path).ackOffset ≤ ((l'.group g).watermark path).ackOffset := by
  obtain ⟨c, ok⟩ := (sound.group g path).commit_ok ho inside
  obtain ⟨sound', le⟩ := (sound.group g path).commit ho ok
  obtain ⟨s, done, marks⟩ := Group.commit_of_watermark ok
  refine ⟨l.withGroup g s, c, ?_, sound.withGroup fun other => ?_, ?_⟩
  · rw [Ledger.commit, done]
  · rw [marks other]
    split
    · exact sound'
    · exact sound.group g other
  · rw [group_withGroup, if_pos rfl, marks path, if_pos rfl]
    exact le

/-- Recording offsets that are all inside the window succeeds. -/
theorem Sound.commitEach (sound : l.Sound) {os : List UInt64} (hos : ∀ o ∈ os, o < lastOffset)
    (inside : ∀ o ∈ os, ((l.group g).watermark path).inWindow o = true) :
    ∃ l', l.commitEach g path os = (.ok (), l') ∧ l'.Sound := by
  induction os generalizing l with
  | nil => exact ⟨l, rfl, sound⟩
  | cons o os ih =>
    obtain ⟨l', c, ok, sound', le⟩ := sound.commit (hos o List.mem_cons_self)
      (inside o List.mem_cons_self)
    -- What was inside the window of the old mark is inside that of the new one.
    have inside' : ∀ p ∈ os, ((l'.group g).watermark path).inWindow p = true := by
      intro p hp
      exact Watermark.inWindow_mono le (inside p (List.mem_cons_of_mem o hp))
    rw [Ledger.commitEach, ok]
    exact ih sound' (fun p hp => hos p (List.mem_cons_of_mem o hp)) inside'

-- Stated of the function and not of its value: comparing values would evaluate the window.
theorem checkWindow_def : checkWindow = fun l g path b =>
    let w := (l.group g).watermark path
    match w.firstOutside b with
    | none => .ok ()
    | some offset => .error (.ackWindowOverflow offset w.ackOffset) := rfl

theorem checkWindow_eq_ok {b : Batch} :
    l.checkWindow g path b = .ok () ↔ ((l.group g).watermark path).firstOutside b = none := by
  rw [checkWindow_def]
  dsimp only
  cases ((l.group g).watermark path).firstOutside b <;> simp

/-- A batch is refused by its window for no other reason. -/
theorem checkWindow_ne_error {b : Batch} {e : Failure} (other : ∀ o a, .ackWindowOverflow o a ≠ e) :
    l.checkWindow g path b ≠ .error e := by
  rw [checkWindow_def]
  dsimp only
  cases ((l.group g).watermark path).firstOutside b with
  | none => nofun
  | some o => exact fun refused => other _ _ (Except.error.inj refused)

/-- A batch that passes the check of the window lies inside it. -/
theorem inWindow_of_checkWindow {b : Batch} (accepted : l.checkWindow g path b = .ok ()) :
    ∀ o ∈ b.offsets, ((l.group g).watermark path).inWindow o = true := by
  rw [checkWindow_eq_ok, Watermark.firstOutside_eq, List.find?_eq_none] at accepted
  intro o ho
  simpa using accepted o ho

/-- A batch whose window was checked can be recorded. -/
theorem Sound.commitEach_batch (sound : l.Sound) {b : Batch} (last : b.last < lastOffset)
    (inside : ∀ o ∈ b.offsets, ((l.group g).watermark path).inWindow o = true) :
    ∃ l', l.commitEach g path b.offsets = (.ok (), l') ∧ l'.Sound := by
  refine sound.commitEach (fun o ho => ?_) inside
  exact UInt64.lt_of_le_of_lt (Batch.mem_offsets.1 ho).2 last

/-- So settling a batch whose window was checked has no failure for its outcome. -/
theorem Sound.settle (sound : l.Sound) {b : Batch} (last : b.last < lastOffset)
    (inside : ∀ o ∈ b.offsets, ((l.group g).watermark path).inWindow o = true)
    (operation : UInt64) (requests : List Request) :
    (l.settle operation g path b requests).outcome = .ok () := by
  obtain ⟨l', ok, -⟩ := sound.commitEach_batch last inside
  rw [Ledger.settle, ok]

end Ledger

/-- Every check point that stands in a row of its table ends before the last offset. -/
def Rows.Early (tables : Config) (r : Rows) : Prop :=
  ∀ key value c, r.get tables.checkPoints key = some value → CheckPoint.decode value = .ok c →
    c.offset < lastOffset

theorem Rows.Early.found {l : Ledger} {r : Rows} (early : r.Early l.config) {id : UInt64}
    {c : CheckPoint} (found : l.found r id = .ok c) : c.offset < lastOffset := by
  unfold Ledger.found at found
  cases row : r.get l.config.checkPoints (CheckPoint.keyOf l.queue id) with
  | none => rw [row] at found; cases found
  | some value =>
    rw [row] at found
    exact early _ value c row found

namespace Site

/-- Every check point that stands in a row of its table ends before the last offset. -/
def Bounded (s : Site) : Prop :=
  ∀ key value c, s.rows.get s.ledger.config.checkPoints key = some value →
    CheckPoint.decode value = .ok c → c.offset < lastOffset

theorem Bounded.found {s : Site} (bounded : s.Bounded) {id : UInt64} {c : CheckPoint}
    (found : s.ledger.found s.rows id = .ok c) : c.offset < lastOffset :=
  Rows.Early.found bounded found

end Site

namespace Command

/-- The offset of a pop is not the last one. -/
def Bounded : Command → Prop
  | replay _ (.pop p) => p.offset < lastOffset
  | _ => True

/-- What is decided does not end in a failure. -/
theorem outcome_of_sound {c : Command} {s : Site} {d : Decision} (sound : s.ledger.Sound)
    (bounded : s.Bounded) (ends : c.Bounded)
    (decided : c.decision s.ledger s.rows = .ok d) : d.outcome = .ok () := by
  match c with
  -- Only what records acknowledgments could end in a failure.
  | .replay id (.pop p) =>
    rcases (Ledger.popDecision_eq_ok decided).2.2 with ⟨-, checked, rfl⟩ | ⟨-, -, rfl⟩
    · refine (sound.deliver p.group p.kind.path p.offset).settle (b := p.batch) ends ?_ id []
      intro o ho
      rw [Ledger.watermark_deliver]
      exact Ledger.inWindow_of_checkWindow checked o ho
    · rfl
  | .replay id (.ack a) =>
    obtain ⟨-, c, found, ⟨-, rfl⟩ | ⟨path, -, checked, rfl⟩⟩ := Ledger.ackDecision_eq_ok decided
    · rfl
    · exact sound.settle (bounded.found found) (Ledger.inWindow_of_checkWindow checked) id _
  | .replay id (.renewal w) =>
    obtain ⟨-, c, -, rfl⟩ := Ledger.renewDecision_eq_ok decided
    rfl
  | .takeSnapshot =>
    obtain ⟨existing, -, decided⟩ :=
      bind_eq_ok.1 (show s.ledger.scanned s.rows >>= _ = _ from decided)
    cases decided
    rfl
  | .load snapshot =>
    obtain ⟨groups, existing, -, -, -, rfl⟩ := Ledger.loadDecision_eq_ok decided
    rfl
  | .clear =>
    obtain ⟨existing, -, rfl⟩ := Ledger.clearDecision_eq_ok decided
    rfl
  | .release snapshot =>
    cases decided
    rfl

/-- So a call that fails has carried out no decision. -/
theorem quiet_of_error {c : Command} {s : Site} {e : Failure} (sound : s.ledger.Sound)
    (bounded : s.Bounded) (ends : c.Bounded) (failed : (c.act s).1 = .error e) :
    s.Quiet (c.act s).2 := by
  rcases c.act_cases s with ⟨-, -, quiet, -⟩ | ⟨d, decided, answer, -⟩
  · exact quiet
  · rw [failed, outcome_of_sound sound bounded ends decided] at answer
    cases answer

end Command

namespace Act

/-- Recording a batch inside the window succeeds on any host. -/
theorem commitAll_of_sound {l : Ledger} {g : UInt64} {path : Path} {b : Batch} (sound : l.Sound)
    (last : b.last < lastOffset)
    (inside : ∀ o ∈ b.offsets, ((l.group g).watermark path).inWindow o = true) (host : Host) :
    (commitAll g path b ⟨l, host⟩).1 = .ok () := by
  obtain ⟨l', ok, -⟩ := sound.commitEach_batch last inside
  obtain ⟨answer, -, -⟩ := commitAll_updates g path b ⟨l, host⟩
  rw [answer]
  dsimp only
  rw [ok]

/-- **A failed call changes nothing.** Take a ledger whose watermarks commits work on and any rows
whatever, in which check points, where they can be read, end before the last offset; and let the
store refuse any calls. If a call fails, the ledger is the same, and so is the store with its rows
and its views. Once a batch has passed the check of the window, recording it cannot fail, whatever
has become of the host, and whether or not a delivery was noted in between. -/
theorem unchanged_of_error (c : Command) (s : Site) (sound : s.ledger.Sound)
    (bounded : s.Bounded) (ends : c.Bounded) :
    (∀ e, (c.act s).1 = .error e →
      (c.act s).2.ledger = s.ledger ∧ (c.act s).2.host.store = s.host.store) ∧
    ∀ g path b, b.last < lastOffset → s.ledger.checkWindow g path b = .ok () →
      ∀ host, (commitAll g path b ⟨s.ledger, host⟩).1 = .ok () ∧
        ∀ o, (commitAll g path b ⟨s.ledger.deliver g path o, host⟩).1 = .ok () := by
  constructor
  · intro e failed
    rcases c.act_cases s with ⟨-, -, quiet, -⟩ | ⟨d, decided, answer, -⟩
    · exact ⟨quiet.ledger, quiet.host.store⟩
    · rw [failed, Command.outcome_of_sound sound bounded ends decided] at answer
      cases answer
  · intro g path b last checked host
    have inside := Ledger.inWindow_of_checkWindow checked
    refine ⟨commitAll_of_sound sound last inside host, fun o => ?_⟩
    refine commitAll_of_sound (sound.deliver g path o) last (fun p hp => ?_) host
    rw [Ledger.watermark_deliver]
    exact inside p hp

/-- An ordered pop of three messages whose batch the store refuses. -/
theorem unchanged_of_refused_pop :
    let pop : Pop := ⟨⟨1, 0⟩, 5, 9, 3, .order, 1000, 500, false, 0⟩
    let s : Site := ⟨.empty ⟨1, 0⟩ .standard, { Host.fresh with
      outages := ⟨fun call _ => decide (call = .batch), .zero⟩ }⟩
    ((Command.replay 7 (.pop pop)).act s).1.toOption = none ∧
      ((Command.replay 7 (.pop pop)).act s).2.host.store = s.host.store := by
  intro pop s
  have failed : ((Command.replay 7 (.pop pop)).act s).1.toOption = none := by decide +kernel
  have bounded : s.Bounded := by
    intro key value c row
    have none : s.rows.get s.ledger.config.checkPoints key = none := by
      simp [s, Site.rows, Host.fresh, Store.empty, Rows.get]
    rw [none] at row
    cases row
  have ends : (Command.replay 7 (.pop pop)).Bounded := by
    show (9 : UInt64) < lastOffset
    decide
  have unchanged := (unchanged_of_error _ s (Ledger.sound_empty _ _) bounded ends).1
  refine ⟨failed, ?_⟩
  cases answer : ((Command.replay 7 (.pop pop)).act s).1 with
  | error e => exact (unchanged e answer).2
  | ok a =>
    rw [answer] at failed
    cases failed

end Act

end QueueLedger
