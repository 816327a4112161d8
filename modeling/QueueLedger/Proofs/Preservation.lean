import QueueLedger.Proofs.Anchoring
import QueueLedger.Proofs.Atomicity
import QueueLedger.Proofs.Coherence
import QueueLedger.Proofs.GroupImages
/-!
# What every call keeps

Whatever the names of the tables are, and however often operations are tried again: commits go on to
work on the watermarks of a ledger, these stay settled, and the check points in the rows end before
the last offset (`Site.Proper.act`). Of a loaded snapshot it is asked that its groups and its check
points are such ones too. This is so for each snapshot that a call gave (`Site.Proper.taken`).

## Proof shape

`Site.Proper` needs its parts together: commits work on because the offsets of a found check point
are early, and check points are early because none was ever written that is not.
-/

namespace QueueLedger

/-! ### Check points end early -/

/-- A request writes no check point that ends at the last offset. -/
def Request.Early (request : Request) : Prop :=
  ∀ value ∈ request.value?, ∀ c, CheckPoint.decode value = .ok c → c.offset < lastOffset

theorem Request.early_delete (space : String) (key : Bytes) : (delete space key).Early := by
  intro value eq
  cases eq

namespace Rows.Early

variable {tables : Config} {l : Ledger} {r : Rows}

theorem apply (early : r.Early tables) {requests : List Request}
    (each : ∀ request ∈ requests, request.Early) : (r.apply requests).Early tables := by
  induction requests generalizing r with
  | nil => exact early
  | cons request requests ih =>
    refine ih (fun key value c row read => ?_) fun request' h =>
      each request' (List.mem_cons_of_mem request h)
    rw [Rows.get_request] at row
    split at row
    next => exact each request List.mem_cons_self value row c read
    next => exact early key value c row read

theorem scanned (early : r.Early l.config) {cs : List CheckPoint} (scan : l.scanned r = .ok cs) :
    ∀ c ∈ cs, c.offset < lastOffset := by
  refine forall_mem_of_mapM_eq_ok scan ?_
  rintro ⟨key, value⟩ listed c read
  exact early key value c (Rows.mem_select.1 listed).1 read

end Rows.Early

/-- The other rows of a delivery do not read as check points: they are too short. -/
theorem CheckPoint.early_of_mem_rows {tables : Config} {c c' : CheckPoint} {a : Address} {v : Bytes}
    (early : c.offset < lastOffset) (row : (a, v) ∈ c.rows tables) (read : decode v = .ok c') :
    c'.offset < lastOffset := by
  have short {v : Bytes} (other : v.length ≠ width) (read : decode v = .ok c') : False := by
    rw [decode, if_neg other] at read
    cases read
  rcases mem_rows.1 row with ⟨-, rfl⟩ | ⟨-, rfl⟩ | ⟨-, o, -, -, rfl⟩
  · rw [decode_encode] at read
    cases read
    exact early
  · refine (short ?_ read).elim
    rw [Receipt.length_encode]
    decide
  · refine (short ?_ read).elim
    rw [OrderLock.value, BigEndian.length_put64]
    decide

namespace Act

variable {tables : Config} {request : Request}

/-- Replacing deliveries by early ones. -/
theorem early_of_mem_replacement {gone wanted : List CheckPoint}
    (early : ∀ c ∈ wanted, c.offset < lastOffset) (h : request ∈ replacement tables gone wanted) :
    request.Early := by
  rcases List.mem_append.1 h with removed | written
  · obtain ⟨c, -, row, -, rfl⟩ := mem_flatMap_deletes.1 removed
    exact Request.early_delete row.1.space row.1.key
  · obtain ⟨c, hc, ⟨a, v⟩, row, rfl⟩ := mem_flatMap_puts.1 written
    intro value eq c' read
    cases eq
    exact CheckPoint.early_of_mem_rows (early c hc) row read

/-- Renewing an early delivery. -/
theorem early_of_mem_moves {c : CheckPoint} {t : UInt64} (early : c.offset < lastOffset)
    (h : request ∈ c.moves tables t) : request.Early := by
  have renewed {a : Address} {v : Bytes} (row : (a, v) ∈ (c.renewed t).rows tables) :
      (Request.put a.space a.key v).Early := by
    intro value eq c' read
    cases eq
    exact CheckPoint.early_of_mem_rows (c := c.renewed t) early row read
  simp only [CheckPoint.moves, List.mem_cons, List.not_mem_nil, or_false] at h
  rcases h with rfl | rfl | rfl
  · exact Request.early_delete tables.timers c.timerKey.encode
  · exact renewed (CheckPoint.mem_rows.2 (Or.inl ⟨rfl, rfl⟩))
  · exact renewed (CheckPoint.mem_rows.2 (Or.inr (Or.inl ⟨rfl, rfl⟩)))

end Act

/-! ### Groups -/

/-- A group is in step with its watermarks, which are settled. -/
structure Group.Settled (s : Group) (g threshold : UInt64) : Prop where
  tracks : s.Tracks g threshold
  marks : ∀ path, (s.watermark path).Settled

/-- A group as runs keep it: commits work on its watermarks, too. -/
structure Group.Proper (s : Group) (g threshold : UInt64) : Prop extends s.Settled g threshold where
  sound : s.Sound

/-- A snapshot of such groups and of check points that end early. -/
structure Snapshot.Proper (s : Snapshot) (threshold : UInt64) : Prop where
  groups : ∀ i ∈ s.groups, ∀ g,
    Group.restore i threshold = .ok g → g.Proper i.counters.group threshold
  early : ∀ c ∈ s.checkPoints, c.offset < lastOffset

/-- Whatever is committed, a group stays in step with watermarks that are settled. -/
theorem Group.settled_lasting (threshold : UInt64) :
    Lasting threshold fun g s => s.Settled g threshold where
  fresh g := by
    refine ⟨tracks_fresh g threshold, fun path => ?_⟩
    cases path <;> exact Watermark.settled_start 0 threshold
  advance h path next := by
    refine ⟨h.tracks.advance path next, fun other => ?_⟩
    rw [watermark_advance]
    exact h.marks other
  commit {g s path o s' c} h ok := by
    refine ⟨h.tracks.commit ok, fun other => ?_⟩
    obtain ⟨committed, marks⟩ := watermark_of_commit ok
    rw [marks]
    split
    · exact (h.marks path).commit committed
    · exact h.marks other

namespace Ledger

variable {l : Ledger}

/-- All groups are as runs keep them. -/
def Proper (l : Ledger) : Prop := l.Every fun g s => s.Proper g l.config.rebaseThreshold

theorem Proper.sound (h : l.Proper) : l.Sound := fun g s known => (h g s known).sound

theorem Proper.settled (h : l.Proper) : l.Every fun g s => s.Settled g l.config.rebaseThreshold :=
  fun g s known => (h g s known).toSettled

theorem Proper.marks (h : l.Proper) (g : UInt64) (path : Path) :
    ((l.group g).watermark path).Settled :=
  (h.settled.group (Group.settled_lasting _) g).marks path

/-- The images of such groups restore to them. -/
theorem Proper.images (h : l.Proper) {i : GroupImage} (hi : i ∈ l.images) {g : Group}
    (restored : Group.restore i l.config.rebaseThreshold = .ok g) :
    g.Proper i.counters.group l.config.rebaseThreshold := by
  obtain ⟨⟨id, s⟩, row, rfl⟩ := List.mem_map.1 hi
  have proper := h id s (Std.ExtTreeMap.mem_toList_iff_getElem?_eq_some.1 row)
  dsimp only at restored ⊢
  rw [proper.tracks.restore_image] at restored
  cases restored
  rw [show g.image.counters.group = id from proper.tracks.group]
  exact proper

/-- Settling a batch inside the window keeps commits at work. -/
theorem Sound.sound_settle (sound : l.Sound) {g : UInt64} {path : Path} {b : Batch}
    (last : b.last < lastOffset)
    (inside : ∀ o ∈ b.offsets, ((l.group g).watermark path).inWindow o = true)
    (operation : UInt64) (requests : List Request) :
    (l.settle operation g path b requests).ledger.Sound := by
  obtain ⟨l', ok, sound'⟩ := sound.commitEach_batch last inside
  rw [Ledger.settle, ok]
  exact sound'

end Ledger

/-! ### One call -/

namespace Command

variable {c : Command} {l : Ledger} {r : Rows} {d : Decision}

/-- Commits go on to work on the watermarks. -/
theorem sound_of_decision (sound : l.Sound) (early : r.Early l.config) (ends : c.Bounded)
    (loads : ∀ snapshot, c = .load snapshot → snapshot.Proper l.config.rebaseThreshold)
    (decided : c.decision l r = .ok d) : d.ledger.Sound := by
  match c with
  | .replay id (.pop p) =>
    have delivered : (l.deliver p.group p.kind.path p.offset).Sound :=
      sound.deliver p.group p.kind.path p.offset
    obtain ⟨-, -, ⟨-, checked, rfl⟩ | ⟨-, -, rfl⟩⟩ := Ledger.popDecision_eq_ok decided
    · refine delivered.sound_settle (b := p.batch) ends (fun o ho => ?_) id []
      rw [Ledger.watermark_deliver]
      exact Ledger.inWindow_of_checkWindow checked o ho
    · exact delivered
  | .replay id (.ack a) =>
    obtain ⟨-, c, found, ⟨-, rfl⟩ | ⟨path, -, checked, rfl⟩⟩ := Ledger.ackDecision_eq_ok decided
    · exact sound
    · exact sound.sound_settle (early.found found) (Ledger.inWindow_of_checkWindow checked) id _
  | .replay id (.renewal w) =>
    obtain ⟨-, c, -, rfl⟩ := Ledger.renewDecision_eq_ok decided
    exact sound
  | .takeSnapshot =>
    obtain ⟨existing, -, decided⟩ := bind_eq_ok.1 (show l.scanned r >>= _ = _ from decided)
    cases decided
    exact sound
  | .load snapshot =>
    obtain ⟨groups, existing, restored, -, -, rfl⟩ := Ledger.loadDecision_eq_ok decided
    exact Ledger.every_of_restoreGroups (P := fun _ s => s.Sound)
      (fun i hi s ok => ((loads snapshot rfl).groups i hi s ok).sound) restored
  | .clear =>
    obtain ⟨existing, -, rfl⟩ := Ledger.clearDecision_eq_ok decided
    exact Ledger.sound_empty l.queue l.config
  | .release snapshot =>
    cases decided
    exact sound

/-- The batch of a call writes no check point that ends at the last offset. -/
theorem early_of_decision (early : r.Early l.config) (ends : c.Bounded)
    (loads : ∀ snapshot, c = .load snapshot → snapshot.Proper l.config.rebaseThreshold)
    (decided : c.decision l r = .ok d) : ∀ request ∈ d.requests, request.Early := by
  intro request h
  match c with
  | .replay id (.pop p) =>
    obtain ⟨-, -, ⟨-, -, rfl⟩ | ⟨-, -, rfl⟩⟩ := Ledger.popDecision_eq_ok decided
    · rw [Ledger.settle_requests] at h
      cases h
    · rw [Act.puts_eq_replacement] at h
      refine Act.early_of_mem_replacement (fun c hc => ?_) h
      obtain rfl := List.mem_singleton.1 hc
      exact ends
  | .replay id (.ack a) =>
    obtain ⟨c, -, requests⟩ := Ledger.requests_of_ackDecision decided
    rw [requests, Act.deletes_eq_replacement] at h
    exact Act.early_of_mem_replacement (by simp) h
  | .replay id (.renewal w) =>
    obtain ⟨-, c, found, rfl⟩ := Ledger.renewDecision_eq_ok decided
    exact Act.early_of_mem_moves (early.found found) h
  | .takeSnapshot =>
    obtain ⟨existing, -, decided⟩ := bind_eq_ok.1 (show l.scanned r >>= _ = _ from decided)
    cases decided
    cases h
  | .load snapshot =>
    obtain ⟨groups, existing, -, -, -, rfl⟩ := Ledger.loadDecision_eq_ok decided
    exact Act.early_of_mem_replacement (loads snapshot rfl).early h
  | .clear =>
    obtain ⟨existing, -, rfl⟩ := Ledger.clearDecision_eq_ok decided
    exact Act.early_of_mem_replacement (by simp) h
  | .release snapshot =>
    cases decided
    cases h

end Command

/-- What runs keep of a queue and of the rows. -/
structure Site.Proper (config : Config) (q : QueueId) (s : Site) : Prop where
  queue_eq : s.ledger.queue = q
  config_eq : s.ledger.config = config
  groups : s.ledger.Proper
  early : s.rows.Early config

namespace Site.Proper

variable {config : Config} {q : QueueId} {s : Site} {c : Command}

/-- **Every call keeps it,** whether it succeeds or fails. -/
theorem act (h : s.Proper config q) (ends : c.Bounded)
    (loads : ∀ snapshot, c = .load snapshot → snapshot.Proper config.rebaseThreshold) :
    (c.act s).2.Proper config q := by
  obtain ⟨rfl, rfl, groups, early⟩ := h
  rcases c.act_cases s with ⟨e, -, quiet, -⟩ | ⟨d, decided, -, moves⟩
  · exact ⟨by rw [quiet.ledger], by rw [quiet.ledger], by rw [quiet.ledger]; exact groups,
      by rw [quiet.rows]; exact early⟩
  · obtain ⟨own, same⟩ := Command.stays_of_decision decided
    have settled := Command.every_of_decision (Group.settled_lasting _) groups.settled
      (fun snapshot eq i hi s' ok => ((loads snapshot eq).groups i hi s' ok).toSettled) decided
    have sound := Command.sound_of_decision groups.sound early ends loads decided
    refine ⟨by rw [moves.ledger, own], by rw [moves.ledger, same], ?_, ?_⟩
    · rw [moves.ledger]
      intro g s' known
      rw [same]
      exact ⟨settled g s' known, sound g s' known⟩
    · rw [moves.rows]
      exact early.apply (Command.early_of_decision early ends loads decided)

/-- A snapshot that a call gives can be loaded. -/
theorem taken (h : s.Proper config q) {snapshot : Snapshot}
    (given : (c.act s).1 = .ok (some snapshot)) : snapshot.Proper config.rebaseThreshold := by
  obtain ⟨rfl, rfl, groups, early⟩ := h
  obtain ⟨-, -, images, scan⟩ := Command.taken_spec given
  refine ⟨?_, early.scanned scan⟩
  rw [images]
  exact fun i hi g restored => groups.images hi restored

end Site.Proper

end QueueLedger
