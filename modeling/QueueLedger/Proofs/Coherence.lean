import QueueLedger.Proofs.CheckPointTable
import QueueLedger.Proofs.Run
/-!
# The tables stay coherent

After every call on a ledger its rows are the image of the deliveries in flight. What each call
does to the set of deliveries is said once, by the lemmas on decisions (`InFlight.pop` and its
siblings); the run only has to chain them.

## Proof shape

The rows alone do not carry the induction. A pop may write its rows because no delivery in flight
comes from its operation, and that is so because all of them come from operations up to the
cursor (`InFlight.covered`). Loading may write the rows of a snapshot because they were mirrored
once, when it was taken (`Snapshot.Fits`), and so do not get in each other's way.
-/

namespace QueueLedger

/-! ### What a scan finds -/

theorem forM_eq_ok {α : Type} {f : α → Except Failure Unit} {as : List α}
    (h : as.forM f = .ok ()) : ∀ a ∈ as, f a = .ok () := by
  induction as with
  | nil => exact fun a ha => by cases ha
  | cons a as ih =>
    obtain ⟨⟨⟩, first, rest⟩ := bind_eq_ok.1 (show f a >>= (fun _ => as.forM f) = .ok () from h)
    intro a' ha'
    rcases List.mem_cons.1 ha' with rfl | ha'
    · exact first
    · exact ih rest a' ha'

theorem forM_of_forall {α : Type} {f : α → Except Failure Unit} {as : List α}
    (h : ∀ a ∈ as, f a = .ok ()) : as.forM f = .ok () := by
  induction as with
  | nil => rfl
  | cons a as ih =>
    refine (bind_eq_ok (x := f a) (f := fun _ => as.forM f)).2 ⟨(), h a List.mem_cons_self, ?_⟩
    exact ih fun a' ha' => h a' (List.mem_cons_of_mem a ha')

namespace Mirrors

variable {l : Ledger} {r : Rows} {live : Set CheckPoint}

/-- A scan reads the live check points. -/
theorem scanned (distinct : l.config.distinct) (m : Mirrors l.config l.queue r live) :
    ∃ cs, l.scanned r = .ok cs ∧ ∀ c, c ∈ cs ↔ c ∈ live := by
  obtain ⟨cs, scan, mem, -⟩ := (m.filed distinct).scanned
  exact ⟨cs, scan, mem⟩

theorem mem_of_scanned (distinct : l.config.distinct) (m : Mirrors l.config l.queue r live)
    {cs : List CheckPoint} (scan : l.scanned r = .ok cs) (c : CheckPoint) : c ∈ cs ↔ c ∈ live :=
  (m.filed distinct).mem_of_scanned scan c

/-- What is found under the id of an operation is the live check point that it left. -/
theorem mem_of_found (distinct : l.config.distinct) (m : Mirrors l.config l.queue r live)
    {id : UInt64} {c : CheckPoint} (found : l.found r id = .ok c) : c ∈ live ∧ c.operation = id :=
  (m.filed distinct).mem_of_found found

end Mirrors

namespace Ledger

variable {l : Ledger} {r : Rows}

theorem checkTurn_eq_ok {id : UInt64} {queue : QueueId} (turn : l.checkTurn id queue = .ok ()) :
    queue = l.queue ∧ ∀ cursor, l.cursor = some cursor → cursor ≤ id := by
  unfold checkTurn at turn
  split at turn
  next own =>
    refine ⟨own, fun cursor hc => ?_⟩
    rw [hc] at turn
    dsimp only at turn
    split at turn
    next le => exact le
    next => cases turn
  next => cases turn

theorem checkOwn_iff {queue : QueueId} {cs : List CheckPoint} :
    checkOwn queue cs = .ok () ↔ ∀ c ∈ cs, c.queue = queue := by
  unfold checkOwn
  cases first : cs.find? fun c => c.queue ≠ queue with
  | none =>
    rw [List.find?_eq_none] at first
    exact iff_of_true rfl fun c hc => by simpa using first c hc
  | some c =>
    refine iff_of_false nofun fun own => ?_
    have foreign := List.find?_some first
    simp [own c (List.mem_of_find?_eq_some first)] at foreign

/-- A delivery that passes the check of locks meets only locks of its own operation. -/
theorem owner_of_unlocked {c : CheckPoint} (unlocked : l.unlocked r c = .ok ()) {key value : Bytes}
    (hkey : key ∈ c.lockKeys) (row : r.get l.config.locks key = some value) :
    OrderLock.owner value = .ok c.operation := by
  have free := forM_eq_ok unlocked key hkey
  unfold unlockedAt at free
  rw [row] at free
  obtain ⟨owner, own, free⟩ := bind_eq_ok.1 free
  split at free
  next same => rw [own, same]
  next => cases free

/-- A check point that is found by its operation is one of the list. -/
theorem mem_of_byOperation {cs : List CheckPoint} {id : UInt64} {c : CheckPoint}
    (h : (byOperation cs).get? id = some c) : c ∈ cs := by
  have walk (cs : List CheckPoint) (m : Std.ExtTreeMap UInt64 CheckPoint)
      (h : (cs.foldl (fun m c => m.insert c.operation c) m).get? id = some c) :
      c ∈ cs ∨ m.get? id = some c := by
    induction cs generalizing m with
    | nil => exact Or.inr h
    | cons c' cs ih =>
      rcases ih (m.insert c'.operation c') h with later | here
      · exact Or.inl (List.mem_cons_of_mem c' later)
      · rw [Std.ExtTreeMap.get?_eq_getElem?, Std.ExtTreeMap.getElem?_insert] at here
        split at here
        · cases here
          exact Or.inl List.mem_cons_self
        · exact Or.inr here
  rcases walk cs ∅ h with mem | none
  · exact mem
  · simp at none

/-- What is not outdated is held by the others as it is. -/
theorem mem_of_not_outdated {existing wanted : List CheckPoint} {c : CheckPoint} (hc : c ∈ existing)
    (stays : c ∉ outdated existing wanted) : c ∈ wanted := by
  have held : (byOperation wanted).get? c.operation = some c := by
    by_contra other
    exact stays (List.mem_filter.2 ⟨hc, by simpa using other⟩)
  exact mem_of_byOperation held

/-- What recording acknowledgments leaves alone. -/
theorem commitEach_keeps (l : Ledger) (g : UInt64) (path : Path) (os : List UInt64) :
    (l.commitEach g path os).2.queue = l.queue ∧ (l.commitEach g path os).2.config = l.config ∧
      (l.commitEach g path os).2.cursor = l.cursor := by
  induction os generalizing l with
  | nil => exact ⟨rfl, rfl, rfl⟩
  | cons o os ih =>
    rw [commitEach]
    unfold Ledger.commit
    cases (l.group g).commit path o with
    | error e => exact ⟨rfl, rfl, rfl⟩
    | ok r => exact ih (l.withGroup g r.1)

/-- The queue and the options are those of `l`, and the cursor is that of `l` or at an operation
whose turn it was. -/
structure Follows (l l' : Ledger) : Prop where
  queue : l'.queue = l.queue
  config : l'.config = l.config
  cursor : l'.cursor = l.cursor ∨
    ∃ id, l'.cursor = some id ∧ ∀ cursor, l.cursor = some cursor → cursor ≤ id

theorem follows_withCursor {id : UInt64} {queue : QueueId} {l' : Ledger}
    (turn : l.checkTurn id queue = .ok ()) (own : l'.queue = l.queue)
    (config : l'.config = l.config) :
    Follows l (l'.withCursor id) :=
  ⟨own, config, Or.inr ⟨id, rfl, (checkTurn_eq_ok turn).2⟩⟩

theorem settle_requests (l : Ledger) (id g : UInt64) (path : Path) (b : Batch)
    (requests : List Request) : (l.settle id g path b requests).requests = requests := by
  unfold settle
  rcases l.commitEach g path b.offsets with ⟨e | _, l'⟩ <;> rfl

/-- The batch of an acknowledgment is the same whether or not it settles a path. -/
theorem requests_of_ackDecision {a : Ack} {id : UInt64} {d : Decision}
    (decided : ackDecision id a l r = .ok d) :
    ∃ c, l.found r a.target = .ok c ∧ d.requests = c.deletes l.config := by
  obtain ⟨-, c, found, ⟨-, rfl⟩ | ⟨path, -, -, rfl⟩⟩ := ackDecision_eq_ok decided
  · exact ⟨c, found, rfl⟩
  · exact ⟨c, found, settle_requests l id c.group path c.batch (c.deletes l.config)⟩

theorem follows_settle (l' : Ledger) {id : UInt64} {queue : QueueId} (g : UInt64) (path : Path)
    (b : Batch) (requests : List Request) (turn : l.checkTurn id queue = .ok ())
    (own : l'.queue = l.queue)
    (config : l'.config = l.config) (cursor : l'.cursor = l.cursor) :
    Follows l (l'.settle id g path b requests).ledger := by
  obtain ⟨kept, kept', kept''⟩ := l'.commitEach_keeps g path b.offsets
  unfold settle
  rcases hc : l'.commitEach g path b.offsets with ⟨e | _, l''⟩
  · rw [hc] at kept kept' kept''
    exact ⟨kept.trans own, kept'.trans config, Or.inl (kept''.trans cursor)⟩
  · rw [hc] at kept kept' kept''
    exact follows_withCursor turn (kept.trans own) (kept'.trans config)

/-- A replay that is not refused stays with its queue, and the cursor does not fall. -/
theorem follows_of_replay {id : UInt64} {o : Operation} {d : Decision}
    (decided : replayDecision id o l r = .ok d) : l.Follows d.ledger := by
  cases o with
  | pop p =>
    obtain ⟨turn, -, ⟨-, -, rfl⟩ | ⟨-, -, rfl⟩⟩ := popDecision_eq_ok decided
    · exact follows_settle (l.deliver p.group p.kind.path p.offset) p.group p.kind.path p.batch []
        turn rfl rfl rfl
    · exact follows_withCursor turn rfl rfl
  | ack a =>
    obtain ⟨turn, c, -, ⟨-, rfl⟩ | ⟨path, -, -, rfl⟩⟩ := ackDecision_eq_ok decided
    · exact follows_withCursor turn rfl rfl
    · exact follows_settle l c.group path c.batch (c.deletes l.config) turn rfl rfl rfl
  | renewal w =>
    obtain ⟨turn, c, -, rfl⟩ := renewDecision_eq_ok decided
    exact follows_withCursor turn rfl rfl

end Ledger

/-- Check points that do not get in each other's way can be put in the place of the live ones. The
live ones that stay are among them. -/
theorem Mirrors.load {l : Ledger} {r : Rows} {live : Set CheckPoint} (distinct : l.config.distinct)
    (m : Mirrors l.config l.queue r live) {wanted existing : List CheckPoint}
    (own : ∀ c ∈ wanted, c.queue = l.queue) (apart : Apart l.config {c | c ∈ wanted})
    (scan : l.scanned r = .ok existing) :
    Remirrors l.config l.queue r
      (r.apply (Act.replacement l.config (Ledger.outdated existing wanted) wanted))
      {c | c ∈ wanted} := by
  have mem := m.mem_of_scanned distinct scan
  refine m.replace distinct (fun c hc => ?_) own (fun c => ?_) apart
  · exact (mem c).1 (List.mem_filter.1 hc).1
  · constructor
    · exact Or.inr
    · intro h
      rcases h with ⟨hc, stays⟩ | hc
      · exact Ledger.mem_of_not_outdated ((mem c).2 hc) stays
      · exact hc

/-! ### What calls do to the deliveries in flight -/

/-- A set of check points comes from operations up to a cursor. -/
def Covered (cursor : Option UInt64) (live : Set CheckPoint) : Prop :=
  ∀ c ∈ live, ∃ id, cursor = some id ∧ c.operation ≤ id

namespace Covered

variable {l l' : Ledger} {live live' : Set CheckPoint}

theorem follow (h : Covered l.cursor live) (next : l.Follows l') : Covered l'.cursor live := by
  intro c hc
  obtain ⟨n, hn, le⟩ := h c hc
  rcases next.cursor with same | ⟨id, hid, above⟩
  · exact ⟨n, same.trans hn, le⟩
  · exact ⟨id, hid, UInt64.le_trans le (above n hn)⟩

theorem subset {cursor : Option UInt64} (h : Covered cursor live) (sub : live' ⊆ live) :
    Covered cursor live' :=
  fun c hc => h c (sub hc)

theorem insert {cursor : Option UInt64} {c : CheckPoint} (h : Covered cursor live)
    (new : ∃ id, cursor = some id ∧ c.operation ≤ id) : Covered cursor (insert c live) := by
  intro c' h
  rcases h with rfl | hc'
  · exact new
  · exact h c' hc'

end Covered

/-- The rows are the image of a set of check points, which come from operations up to the
cursor. -/
structure InFlight (l : Ledger) (r : Rows) (live : Set CheckPoint) : Prop where
  mirrors : Mirrors l.config l.queue r live
  covered : Covered l.cursor live

/-- A snapshot that can be loaded into a queue: its check points are of this queue, do not get in
each other's way, and come from operations up to its cursor. -/
structure Snapshot.Fits (tables : Config) (q : QueueId) (s : Snapshot) : Prop where
  own : ∀ c ∈ s.checkPoints, c.queue = q
  apart : Apart tables {c | c ∈ s.checkPoints}
  covered : Covered s.cursor {c | c ∈ s.checkPoints}

namespace InFlight

variable {l l' : Ledger} {r : Rows} {live live' : Set CheckPoint} {c : CheckPoint} {id : UInt64}
  {d : Decision}

/-- A live check point does not come from an operation above the cursor. -/
theorem operation_ne (f : InFlight l r live) (above : l.Above id) (hc : c ∈ live) :
    c.operation ≠ id := by
  intro same
  subst same
  obtain ⟨n, hn, le⟩ := f.covered c hc
  exact absurd le (UInt64.not_le.2 (above n hn))

/-- A pop that leaves a delivery in flight adds its check point. -/
theorem pop (distinct : l.config.distinct) (f : InFlight l r live) {p : Pop}
    (turn : l.checkTurn id p.queue = .ok ()) (above : l.Above id)
    (unlocked : l.unlocked r (.ofPop id p) = .ok ()) :
    Remirrors l.config l.queue r (r.apply ((CheckPoint.ofPop id p).puts l.config))
      (insert (.ofPop id p) live) := by
  have own : (CheckPoint.ofPop id p).queue = l.queue := (Ledger.checkTurn_eq_ok turn).1
  -- A delivery that is in the way would come from this operation, but all are older.
  have free : ∀ c' ∈ live, ¬ (CheckPoint.ofPop id p).Collides c' := by
    intro c' hc' h
    rcases h with same | ⟨ordered, ordered', group, queue, o, ho, ho'⟩
    · exact f.operation_ne above hc' same.symm
    · have lock := f.mirrors.get_of_mem hc' (CheckPoint.lock_mem_rows ordered' ho')
      rw [← group, ← queue] at lock
      have owner := Ledger.owner_of_unlocked unlocked
        (CheckPoint.mem_lockKeys.2 ⟨ordered, o, ho, rfl⟩) lock
      rw [OrderLock.owner_value] at owner
      cases owner
      exact f.operation_ne above hc' rfl
  rw [Act.puts_eq_replacement]
  refine f.mirrors.replace distinct (by simp) ?_ (fun c => ?_)
    ((f.mirrors.apart distinct).insert distinct free)
  · intro c hc
    obtain rfl := List.mem_singleton.1 hc
    exact own
  · simp [or_comm]

/-- An acknowledgment takes the check point away. -/
theorem ack (distinct : l.config.distinct) (f : InFlight l r live) (hc : c ∈ live) :
    Remirrors l.config l.queue r (r.apply (c.deletes l.config)) (live \ {c}) := by
  rw [Act.deletes_eq_replacement]
  refine f.mirrors.replace distinct (by simpa using hc) (by simp) (fun c' => ?_)
    ((f.mirrors.apart distinct).subset fun _ h => h.1)
  simp

/-- A renewal puts the renewed check point in the place of the old one. -/
theorem renew (distinct : l.config.distinct) (f : InFlight l r live) (hc : c ∈ live) (t : UInt64) :
    Remirrors l.config l.queue r (r.apply (c.moves l.config t))
      (insert (c.renewed t) (live \ {c})) := by
  have free : ∀ c' ∈ live \ {c}, ¬ (c.renewed t).Collides c' := by
    intro c' h
    obtain ⟨hc', other⟩ := h
    intro collide
    -- Collisions do not depend on the time of visibility.
    exact other (f.mirrors.eq_of_collides hc hc' collide).symm
  rw [f.mirrors.apply_moves distinct hc t]
  refine f.mirrors.replace distinct (by simpa using hc) ?_ (fun c' => ?_)
    (((f.mirrors.apart distinct).subset fun _ h => h.1).insert distinct free)
  · intro c' hc'
    obtain rfl := List.mem_singleton.1 hc'
    exact f.mirrors.own c hc
  · simp [or_comm]

/-- Loading a snapshot puts its check points in the place of the live ones. -/
theorem load (distinct : l.config.distinct) (f : InFlight l r live) {s : Snapshot}
    (fits : s.Fits l.config l.queue) {existing : List CheckPoint}
    (scan : l.scanned r = .ok existing) :
    Remirrors l.config l.queue r (r.apply (Act.replacement l.config
      (Ledger.outdated existing s.checkPoints) s.checkPoints)) {c | c ∈ s.checkPoints} :=
  f.mirrors.load distinct fits.own fits.apart scan

/-- Clearing leaves nothing in flight. -/
theorem clear (distinct : l.config.distinct) (f : InFlight l r live) {existing : List CheckPoint}
    (scan : l.scanned r = .ok existing) :
    Remirrors l.config l.queue r (r.apply (Act.replacement l.config existing [])) ∅ := by
  have mem := f.mirrors.mem_of_scanned distinct scan
  refine f.mirrors.replace distinct (fun c hc => (mem c).1 hc) (by simp) (fun c => ?_) ?_
  · simp [mem]
  · exact fun c hc => hc.elim

/-- What is scanned fits for a snapshot. -/
theorem fits (distinct : l.config.distinct) (f : InFlight l r live) {s : Snapshot}
    (scan : l.scanned r = .ok s.checkPoints) (cursor : s.cursor = l.cursor) :
    s.Fits l.config l.queue := by
  have mem := f.mirrors.mem_of_scanned distinct scan
  refine ⟨fun c hc => f.mirrors.own c ((mem c).1 hc), ?_, fun c hc => ?_⟩
  · exact (f.mirrors.apart distinct).subset fun c hc => (mem c).1 hc
  · rw [cursor]
    exact f.covered c ((mem c).1 hc)

/-- No request, no change. -/
theorem stay (f : InFlight l r live) : Remirrors l.config l.queue r r live :=
  ⟨f.mirrors, fun _ _ => rfl⟩

end InFlight

namespace Command

/-- What a call that carries out its decision makes of the deliveries in flight. -/
def LeadsTo : Command → Set CheckPoint → Set CheckPoint → Prop
  | replay id (.pop p), live, live' => live' = if p.endMark then live else insert (.ofPop id p) live
  | replay _ (.ack a), live, live' => ∃ c ∈ live, c.operation = a.target ∧ live' = live \ {c}
  | replay _ (.renewal w), live, live' =>
    ∃ c ∈ live, c.operation = w.target ∧ live' = insert (c.renewed w.nextVisible) (live \ {c})
  | load s, _, live' => live' = {c | c ∈ s.checkPoints}
  | clear, _, live' => live' = ∅
  | takeSnapshot, live, live' => live' = live
  | release _, live, live' => live' = live

/-- The calls that keep the tables coherent: replays of operations above the cursor, and loads of
snapshots that fit. -/
def Admitted (l : Ledger) : Command → Prop
  | replay id _ => l.Above id
  | load s => s.Fits l.config l.queue
  | _ => True

variable {l : Ledger} {r : Rows} {live : Set CheckPoint} {d : Decision}

/-- No call leaves its queue. -/
theorem stays_of_decision {c : Command} (decided : c.decision l r = .ok d) :
    d.ledger.queue = l.queue ∧ d.ledger.config = l.config := by
  cases c with
  | replay id o =>
    have next := Ledger.follows_of_replay decided
    exact ⟨next.queue, next.config⟩
  | takeSnapshot =>
    obtain ⟨existing, -, decided⟩ := bind_eq_ok.1 (show l.scanned r >>= _ = _ from decided)
    cases decided
    exact ⟨rfl, rfl⟩
  | load s =>
    obtain ⟨groups, existing, -, -, -, rfl⟩ := Ledger.loadDecision_eq_ok decided
    exact ⟨rfl, rfl⟩
  | clear =>
    obtain ⟨existing, -, rfl⟩ := Ledger.clearDecision_eq_ok decided
    exact ⟨rfl, rfl⟩
  | release s =>
    cases decided
    exact ⟨rfl, rfl⟩

/-- **One call keeps the tables coherent.** -/
theorem inFlight_of_decision (distinct : l.config.distinct) (f : InFlight l r live) {c : Command}
    (may : c.Admitted l) (decided : c.decision l r = .ok d) :
    ∃ live', c.LeadsTo live live' ∧ Remirrors l.config l.queue r (r.apply d.requests) live' ∧
      Covered d.ledger.cursor live' := by
  match c with
  | .replay id (.pop p) =>
    have next : l.Follows d.ledger := Ledger.follows_of_replay (o := .pop p) decided
    obtain ⟨turn, -, ⟨mark, -, rfl⟩ | ⟨mark, unlocked, rfl⟩⟩ := Ledger.popDecision_eq_ok decided
    · refine ⟨live, ?_, ?_, f.covered.follow next⟩
      · rw [LeadsTo, if_pos mark]
      · rw [Ledger.settle_requests]
        exact f.stay
    · refine ⟨insert (.ofPop id p) live, ?_, f.pop distinct turn may unlocked, ?_⟩
      · rw [LeadsTo, if_neg (by simp [mark])]
      · exact (f.covered.follow next).insert ⟨id, rfl, UInt64.le_refl id⟩
  | .replay id (.ack a) =>
    have next : l.Follows d.ledger := Ledger.follows_of_replay (o := .ack a) decided
    obtain ⟨c, found, requests⟩ := Ledger.requests_of_ackDecision decided
    obtain ⟨hc, target⟩ := f.mirrors.mem_of_found distinct found
    have fewer : live \ {c} ⊆ live := fun _ h => h.1
    refine ⟨live \ {c}, ⟨c, hc, target, rfl⟩, ?_, (f.covered.follow next).subset fewer⟩
    rw [requests]
    exact f.ack distinct hc
  | .replay id (.renewal w) =>
    have next : l.Follows d.ledger := Ledger.follows_of_replay (o := .renewal w) decided
    obtain ⟨-, c, found, rfl⟩ := Ledger.renewDecision_eq_ok decided
    obtain ⟨hc, target⟩ := f.mirrors.mem_of_found distinct found
    refine ⟨insert (c.renewed w.nextVisible) (live \ {c}), ⟨c, hc, target, rfl⟩,
      f.renew distinct hc w.nextVisible, ?_⟩
    have older := f.covered.follow next
    exact (older.subset fun _ h => h.1).insert (older c hc)
  | .takeSnapshot =>
    obtain ⟨existing, -, decided⟩ := bind_eq_ok.1 (show l.scanned r >>= _ = _ from decided)
    cases decided
    exact ⟨live, rfl, f.stay, f.covered⟩
  | .load snapshot =>
    obtain ⟨groups, existing, -, -, scan, rfl⟩ := Ledger.loadDecision_eq_ok decided
    have fits : snapshot.Fits l.config l.queue := may
    exact ⟨_, rfl, f.load distinct fits scan, fits.covered⟩
  | .clear =>
    obtain ⟨existing, scan, rfl⟩ := Ledger.clearDecision_eq_ok decided
    exact ⟨∅, rfl, f.clear distinct scan, fun c hc => hc.elim⟩
  | .release snapshot =>
    cases decided
    exact ⟨live, rfl, f.stay, f.covered⟩

end Command

/-! ### Runs -/

namespace Moment

/-- The policy of one owner: it replays operations above the cursor, and loads snapshots that it
took itself. -/
def Orderly (m : Moment) : Command → Prop
  | .replay id _ => m.site.ledger.Above id
  | .load s => s ∈ m.taken
  | _ => True

/-- What an orderly run keeps. The rows of the queue are the image of the deliveries in flight, the
snapshots taken so far can be loaded, and the rows of others are those of the start. -/
structure Kept (queue : QueueId) (config : Config) (first : Rows) (m : Moment)
    (live : Set CheckPoint) : Prop where
  /-- The queue of the ledger. -/
  queue_eq : m.site.ledger.queue = queue
  /-- The options of the ledger. -/
  config_eq : m.site.ledger.config = config
  /-- The rows mirror the deliveries in flight. -/
  inFlight : InFlight m.site.ledger m.site.rows live
  /-- Every snapshot fits. -/
  fits : ∀ s ∈ m.taken, s.Fits config queue
  /-- Rows that do not belong to the queue are untouched. -/
  frame : ∀ a, ¬ Owned config queue a → m.site.rows.get a.space a.key = first.get a.space a.key

variable {queue : QueueId} {config : Config} {first : Rows} {m : Moment} {live : Set CheckPoint}

theorem kept_start (queue : QueueId) (config : Config) (host : Host)
    (bare : ∀ a, Owned config queue a → host.store.rows.get a.space a.key = none) :
    Kept queue config host.store.rows (.start queue config host) ∅ where
  queue_eq := rfl
  config_eq := rfl
  inFlight := ⟨.of_none bare, fun _ hc => hc.elim⟩
  fits _ hs := by cases hs
  frame _ _ := rfl

theorem Kept.admitted (k : Kept queue config first m live) {c : Command} (may : m.Orderly c) :
    c.Admitted m.site.ledger := by
  match c with
  | .replay id o => exact may
  | .load s =>
    have fits := k.fits s may
    rw [← k.config_eq, ← k.queue_eq] at fits
    exact fits
  | .takeSnapshot => trivial
  | .clear => trivial
  | .release s => trivial

/-- One call of an orderly run. It fails and leaves the deliveries in flight as they are, or it
makes of them what its decision says. -/
theorem Kept.after (distinct : config.distinct) (k : Kept queue config first m live) {c : Command}
    (may : m.Orderly c) :
    ∃ live', Kept queue config first (m.after c) live' ∧
      (c.Fails m.site (c.act m.site) ∧ live' = live ∨
        (∃ d, c.decision m.site.ledger m.site.rows = .ok d) ∧ c.LeadsTo live live') := by
  have distinct' : m.site.ledger.config.distinct := by rw [k.config_eq]; exact distinct
  -- A snapshot that this call gives was scanned from mirrored rows.
  have fits : ∀ s ∈ (m.after c).taken, s.Fits config queue := by
    intro s hs
    rcases mem_taken_after hs with old | given
    · exact k.fits s old
    · obtain ⟨-, cursor, -, scan⟩ := Command.taken_spec given
      rw [← k.config_eq, ← k.queue_eq]
      exact k.inFlight.fits distinct' scan cursor
  rcases c.act_cases m.site with fails | ⟨d, decided, -, moves⟩
  · obtain ⟨e, -, quiet, -⟩ := id fails
    rw [← after_site] at quiet
    refine ⟨live, ⟨?_, ?_, ?_, fits, ?_⟩, Or.inl ⟨fails, rfl⟩⟩
    · rw [quiet.ledger, k.queue_eq]
    · rw [quiet.ledger, k.config_eq]
    · rw [quiet.ledger, quiet.rows]
      exact k.inFlight
    · rw [quiet.rows]
      exact k.frame
  · rw [← after_site] at moves
    obtain ⟨own, config'⟩ := Command.stays_of_decision decided
    obtain ⟨live', leads, re, covered⟩ :=
      Command.inFlight_of_decision distinct' k.inFlight (k.admitted may) decided
    refine ⟨live', ⟨?_, ?_, ?_, fits, ?_⟩, Or.inr ⟨⟨d, decided⟩, leads⟩⟩
    · rw [moves.ledger, own, k.queue_eq]
    · rw [moves.ledger, config', k.config_eq]
    · rw [moves.ledger, moves.rows]
      refine ⟨?_, covered⟩
      rw [own, config']
      exact re.mirrors
    · intro a foreign
      rw [moves.rows, ← k.frame a foreign]
      rw [← k.config_eq, ← k.queue_eq] at foreign
      exact re.frame a foreign

/-- An orderly run keeps the tables coherent. -/
theorem kept_of_reached {host : Host} (distinct : config.distinct)
    (bare : ∀ a, Owned config queue a → host.store.rows.get a.space a.key = none)
    (run : Reached Orderly (.start queue config host) m) :
    ∃ live, Kept queue config host.store.rows m live := by
  induction run with
  | start => exact ⟨∅, kept_start queue config host bare⟩
  | call c before may ih =>
    obtain ⟨live, k⟩ := ih
    obtain ⟨live', k', -⟩ := k.after distinct may
    exact ⟨live', k'⟩

end Moment

/-- The check points in flight, read off the rows: those that stand under their own key. -/
def Standing (tables : Config) (q : QueueId) (r : Rows) (c : CheckPoint) : Prop :=
  c.queue = q ∧ r.get tables.checkPoints c.key = some c.encode

theorem Standing.eq_of_key {tables : Config} {q : QueueId} {r : Rows} {c c' : CheckPoint}
    (h : Standing tables q r c) (h' : Standing tables q r c') (same : c.key = c'.key) : c = c' := by
  have row := h.2
  rw [same, h'.2, Option.some.injEq] at row
  exact (CheckPoint.encode_inj.1 row).symm

/-- The rows of the queue are exactly the image of its live check points. -/
structure Coherent (tables : Config) (q : QueueId) (r : Rows) : Prop where
  /-- A check point row is stored under the key of the record that it holds. -/
  checkPoints : ∀ key value, (CheckPoint.scope q).isPrefixOf key = true →
    r.get tables.checkPoints key = some value →
      ∃ c, Standing tables q r c ∧ key = c.key ∧ value = c.encode
  /-- The timer rows are one for each live check point, with its receipt. -/
  timers : ∀ due operation value,
    r.get tables.timers (TimerKey.encode ⟨due, q, operation⟩) = some value ↔
      ∃ c, Standing tables q r c ∧ c.timerKey = ⟨due, q, operation⟩ ∧ value = c.receipt.encode
  /-- The locks are one for each offset of each live ordered check point, owned by it. -/
  locks : ∀ group offset value,
    r.get tables.locks (OrderLock.key group q offset) = some value ↔
      ∃ c, Standing tables q r c ∧ c.kind = .order ∧ c.group = group ∧ offset ∈ c.batch.offsets ∧
        value = OrderLock.value c.operation

/-- Between two sites lies at most one batch. -/
def Site.OneBatch (s s' : Site) : Prop :=
  (s'.host.batches = s.host.batches ∧ s'.rows = s.rows) ∨
    ∃ requests, s'.host.batches = s.host.batches + 1 ∧ s'.rows = s.rows.apply requests

theorem Mirrors.coherent {tables : Config} {q : QueueId} {r : Rows} {live : Set CheckPoint}
    (distinct : tables.distinct) (m : Mirrors tables q r live) : Coherent tables q r := by
  have standing (c : CheckPoint) : Standing tables q r c ↔ c ∈ live := (m.mem_iff distinct).symm
  obtain ⟨ct, cl, tl⟩ := id distinct
  constructor
  case checkPoints =>
    intro key value stem row
    obtain ⟨c, hc, rfl, rfl⟩ := m.checkPoint_of_get distinct stem row
    exact ⟨c, (standing c).2 hc, rfl, rfl⟩
  case timers =>
    intro due operation value
    have owned : Owned tables q ⟨tables.timers, TimerKey.encode ⟨due, q, operation⟩⟩ :=
      Or.inr (Or.inl ⟨rfl, due, operation, rfl⟩)
    refine (m.get_iff _ value owned).trans ?_
    constructor
    · intro h
      obtain ⟨c, hc, row⟩ := h
      rcases CheckPoint.mem_rows.1 row with ⟨ha, -⟩ | ⟨ha, hv⟩ | ⟨-, o, -, ha, -⟩
      · exact absurd (Address.mk.inj ha).1.symm ct
      · exact ⟨c, (standing c).2 hc, (TimerKey.encode_inj.1 (Address.mk.inj ha).2).symm, hv⟩
      · exact absurd (Address.mk.inj ha).1 tl
    · intro h
      obtain ⟨c, hc, key, rfl⟩ := h
      refine ⟨c, (standing c).1 hc, CheckPoint.mem_rows.2 (Or.inr (Or.inl ⟨?_, rfl⟩))⟩
      rw [key]
  case locks =>
    intro group offset value
    have owned : Owned tables q ⟨tables.locks, OrderLock.key group q offset⟩ :=
      Or.inr (Or.inr ⟨rfl, group, offset, rfl⟩)
    refine (m.get_iff _ value owned).trans ?_
    constructor
    · intro h
      obtain ⟨c, hc, row⟩ := h
      rcases CheckPoint.mem_rows.1 row with ⟨ha, -⟩ | ⟨ha, -⟩ | ⟨ordered, o, ho, ha, hv⟩
      · exact absurd (Address.mk.inj ha).1.symm cl
      · exact absurd (Address.mk.inj ha).1.symm tl
      · obtain ⟨rfl, -, rfl⟩ := OrderLock.key_inj.1 (Address.mk.inj ha).2
        exact ⟨c, (standing c).2 hc, ordered, rfl, ho, hv⟩
    · intro h
      obtain ⟨c, hc, ordered, rfl, ho, rfl⟩ := h
      refine ⟨c, (standing c).1 hc, ?_⟩
      rw [← hc.1]
      exact CheckPoint.lock_mem_rows ordered ho

/-- No call sends more than one batch. -/
theorem Command.oneBatch (c : Command) (s : Site) : s.OneBatch (c.act s).2 := by
  rcases c.act_cases s with ⟨e, -, quiet, -⟩ | ⟨d, -, -, moves⟩
  · exact Or.inl ⟨quiet.host.batches, quiet.rows⟩
  · cases empty : d.requests.isEmpty with
    | true =>
      refine Or.inl ⟨by rw [moves.batches, empty]; rfl, ?_⟩
      rw [moves.rows, List.isEmpty_iff.1 empty, Rows.apply_nil]
    | false => exact Or.inr ⟨d.requests, by rw [moves.batches, empty]; rfl, moves.rows⟩

/-- **The tables stay coherent.** Start with an empty ledger on any host whose store has no row of
the queue, with three different tables and any schedule of refusals, and make any orderly calls.
Then the rows of the queue are exactly the image of its live check points, and the rows of others
are untouched. This holds after every call, and a call sends at most one batch, so it holds at
every moment. -/
theorem Reached.tables_coherent {queue : QueueId} {config : Config} {host : Host} {m : Moment}
    (distinct : config.distinct)
    (bare : ∀ a, Owned config queue a → host.store.rows.get a.space a.key = none)
    (run : Reached Moment.Orderly (.start queue config host) m) :
    Coherent config queue m.site.rows ∧
      (∀ a, ¬ Owned config queue a →
        m.site.rows.get a.space a.key = host.store.rows.get a.space a.key) ∧
      ∀ c, m.site.OneBatch (m.after c).site := by
  obtain ⟨live, k⟩ := Moment.kept_of_reached distinct bare run
  refine ⟨?_, k.frame, fun c => ?_⟩
  · have mirrors := k.inFlight.mirrors
    rw [k.config_eq, k.queue_eq] at mirrors
    exact mirrors.coherent distinct
  · rw [Moment.after_site]
    exact c.oneBatch m.site

/-- An ordered pop of three messages, a snapshot, a renewal whose batch the store refuses, and the
snapshot loaded: five rows are left. -/
theorem Reached.tables_coherent_of_reload :
    let pop : Pop := ⟨⟨1, 0⟩, 5, 9, 3, .order, 1000, 500, false, 0⟩
    let renewal : Renewal := ⟨⟨1, 0⟩, 1, 1200, 500⟩
    let host : Host := { Host.fresh with
      outages := ⟨fun call n => decide (call = .batch ∧ n = 1), .zero⟩ }
    let popped : Moment := (Moment.start ⟨1, 0⟩ .standard host).after (.replay 1 (.pop pop))
    let taken : Moment := popped.after .takeSnapshot
    let renewed : Moment := taken.after (.replay 2 (.renewal renewal))
    let loaded : Moment := renewed.after (.load taken.taken.head!)
    loaded.site.rows.size = 5 ∧ Coherent .standard ⟨1, 0⟩ loaded.site.rows := by
  intro pop renewal host popped taken renewed loaded
  have empty (a : Address) : host.store.rows.get a.space a.key = none := by
    simp [host, Host.fresh, Store.empty, Rows.get]
  have first : Ledger.Above (.empty ⟨1, 0⟩ .standard) 1 := by decide
  have second : taken.site.ledger.Above 2 := by decide +kernel
  have held : taken.taken.head! ∈ renewed.taken := by decide +kernel
  have run : Reached Moment.Orderly (.start ⟨1, 0⟩ .standard host) popped :=
    Reached.start.call (.replay 1 (.pop pop)) first
  have run : Reached Moment.Orderly (.start ⟨1, 0⟩ .standard host) taken :=
    run.call .takeSnapshot trivial
  have run : Reached Moment.Orderly (.start ⟨1, 0⟩ .standard host) renewed :=
    run.call (.replay 2 (.renewal renewal)) second
  have run : Reached Moment.Orderly (.start ⟨1, 0⟩ .standard host) loaded :=
    run.call (.load taken.taken.head!) held
  have size : loaded.site.rows.size = 5 := by decide +kernel
  exact ⟨size, (Reached.tables_coherent (by decide) (fun a _ => empty a) run).1⟩

end QueueLedger
