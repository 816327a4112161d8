import QueueLedger.Proofs.Alike
import QueueLedger.Proofs.GroupImages
import QueueLedger.Proofs.SnapshotWire
/-!
# Recovery

A snapshot is a full substitute for the queue that it was taken of. Loaded into any machine of the
same queue, fresh or with other work behind it, it brings back the ledger and the rows, and from
there on nobody can tell the difference (`Reached.recovers`).

## Proof shape

What a snapshot says of a ledger and its rows is written down without the version of the pinned
view (`Snapshot.Depicts`), so the version plays no part. Three facts make up the rest: the groups
read back from their images because their counters are kept in step (`Ledger.Tracked`), the check
points replace whatever is in flight (`InFlight.load`), and the bytes read back
(`Snapshot.decode_encode`).
-/

namespace QueueLedger

/-! ### What runs keep -/

/-- Carrying out a decision keeps the counters of all groups in step. Restoring gives groups in step
for any images, so what is loaded need not be a snapshot of an own ledger. -/
theorem Command.tracked_of_decision {c : Command} {l : Ledger} {r : Rows} {d : Decision}
    (h : l.Tracked) (decided : c.decision l r = .ok d) : d.ledger.Tracked := by
  unfold Ledger.Tracked
  rw [(stays_of_decision decided).2]
  exact every_of_decision (Group.tracks_lasting _) h
    (fun _ _ _ _ _ restored => Group.tracks_of_restore restored) decided

namespace Moment

variable {allowed : Moment → Command → Prop} {queue : QueueId} {config : Config} {host : Host}
  {m : Moment}

/-- The counters are in step after every run, whatever is loaded on the way. -/
theorem tracked_of_reached (run : Reached allowed (.start queue config host) m) :
    m.site.ledger.Tracked := by
  refine run.induction (motive := fun m => m.site.ledger.Tracked)
    (Ledger.tracked_empty queue config) fun m c h _ => ?_
  rw [after_site]
  rcases c.act_cases m.site with ⟨e, -, quiet, -⟩ | ⟨d, decided, -, moves⟩
  · rw [quiet.ledger]
    exact h
  · rw [moves.ledger]
    exact Command.tracked_of_decision h decided

end Moment

/-! ### What a snapshot says -/

/-- The collections of a site can be counted with 64 bits, like all that are in memory. -/
structure Site.Countable (s : Site) : Prop where
  /-- The consumer groups. -/
  groups : s.ledger.groups.size < UInt64.size
  /-- The rows of the store. -/
  rows : s.rows.size < UInt64.size

/-- A scan finds at most one check point in a row. -/
theorem Ledger.length_scanned_le {l : Ledger} {r : Rows} {cs : List CheckPoint}
    (scan : l.scanned r = .ok cs) : cs.length ≤ r.size := by
  have selected := Range.select_eq_filter (.under (CheckPoint.scope l.queue))
    (r.ascending_inSpace l.config.checkPoints)
  have few : (r.inSpace l.config.checkPoints).length ≤ r.size := by
    rw [← Std.ExtTreeMap.length_toList]
    exact List.length_filterMap_le _ _
  rw [length_of_scanned scan, selected]
  exact (List.length_filter_le _ _).trans few

namespace Snapshot

/-- A snapshot shows a ledger and the rows of its queue. -/
structure Depicts (s : Snapshot) (l : Ledger) (r : Rows) : Prop where
  cursor : s.cursor = l.cursor
  groups : s.groups = l.images
  checkPoints : l.scanned r = .ok s.checkPoints

/-- A snapshot that is taken can be written down. -/
theorem Depicts.sized {s : Snapshot} {site : Site} (h : s.Depicts site.ledger site.rows)
    (countable : site.Countable) : s.Sized := by
  refine ⟨?_, Nat.lt_of_le_of_lt (Ledger.length_scanned_le h.checkPoints) countable.rows, ?_⟩
  · rw [h.groups, Ledger.images, List.length_map, Std.ExtTreeMap.length_toList]
    exact countable.groups
  · intro image mem
    rw [h.groups, Ledger.images] at mem
    obtain ⟨row, -, rfl⟩ := List.mem_map.1 mem
    exact ⟨Bitmap.length_encode_lt row.2.data.bits, Bitmap.length_encode_lt row.2.retry.bits⟩

end Snapshot

/-- Taking a snapshot on a host that answers gives one that shows the site, and leaves the ledger
and the rows alone. -/
theorem Act.takeSnapshot_depicts {s : Site} {live : Set CheckPoint}
    (distinct : s.ledger.config.distinct) (f : InFlight s.ledger s.rows live)
    (answers : s.host.Answers) :
    ∃ snapshot, (takeSnapshot s).1 = .ok snapshot ∧ snapshot.Depicts s.ledger s.rows := by
  obtain ⟨cs, scan, -⟩ := f.mirrors.scanned distinct
  rcases takeSnapshot_cases s with ⟨e, -, -, failed | ⟨refuses, -⟩⟩ | ⟨cs', found, answer, -⟩
  · rw [scan] at failed
    cases failed
  · exact absurd answers refuses
  · exact ⟨_, answer, rfl, rfl, found⟩

/-! ### Loading -/

/-- The decision to load a snapshot of one ledger into another one of the same queue: nothing is
refused, and the other ledger and its rows become those that the snapshot shows. -/
theorem Ledger.loadDecision_of_depicts {s : Snapshot} {l l' : Ledger} {r r' : Rows}
    {live live' : Set CheckPoint} (distinct : l.config.distinct) (queue : l'.queue = l.queue)
    (config : l'.config = l.config) (h : s.Depicts l r) (tracked : l.Tracked)
    (f : InFlight l r live) (f' : InFlight l' r' live') :
    ∃ d, loadDecision s l' r' = .ok d ∧ d.outcome = .ok () ∧ d.ledger = l ∧
      Rows.Agree l.config l.queue r (r'.apply d.requests) := by
  have distinct' : l'.config.distinct := by rw [config]; exact distinct
  have restored : restoreGroups l'.config s.groups = .ok l.groups := by
    rw [config, h.groups]
    exact tracked.restoreGroups_images
  have fits : s.Fits l'.config l'.queue := by
    rw [config, queue]
    exact f.fits distinct h.checkPoints h.cursor
  have own : checkOwn l'.queue s.checkPoints = .ok () := by
    have none : s.checkPoints.find? (fun c => c.queue ≠ l'.queue) = none := by
      rw [List.find?_eq_none]
      intro c hc
      simpa using fits.own c hc
    rw [checkOwn, none]
  obtain ⟨existing, scan, -⟩ := f'.mirrors.scanned distinct'
  have decided : loadDecision s l' r' = .ok ⟨Act.replacement l'.config
      (outdated existing s.checkPoints) s.checkPoints, .ok (),
      { l' with groups := l.groups, cursor := s.cursor }⟩ := by
    rw [loadDecision, restored, own, scan]
    rfl
  refine ⟨_, decided, rfl, ?_, ?_⟩
  · rw [h.cursor]
    cases l
    cases l'
    cases queue
    cases config
    rfl
  · -- Both are the image of what the snapshot holds.
    have shown : live = {c | c ∈ s.checkPoints} :=
      Set.ext fun c => (f.mirrors.mem_of_scanned distinct h.checkPoints c).symm
    have loaded := (f'.load distinct' fits scan).mirrors
    rw [config, queue] at loaded
    rw [shown] at f
    dsimp only
    rw [config]
    exact Rows.agree_of_mirrors f.mirrors loaded

/-- Loading carries this out. -/
theorem Act.loadSnapshot_alike {s : Snapshot} {source target : Site} {live live' : Set CheckPoint}
    (distinct : source.ledger.config.distinct) (queue : target.ledger.queue = source.ledger.queue)
    (config : target.ledger.config = source.ledger.config)
    (h : s.Depicts source.ledger source.rows) (tracked : source.ledger.Tracked)
    (f : InFlight source.ledger source.rows live) (f' : InFlight target.ledger target.rows live')
    (answers : target.host.Answers) :
    (loadSnapshot s target).1 = .ok () ∧ source.Alike (loadSnapshot s target).2 := by
  obtain ⟨d, decided, outcome, ledger, rows⟩ :=
    Ledger.loadDecision_of_depicts distinct queue config h tracked f f'
  rcases (loadSnapshot_does s).of_answers answers with
    ⟨e, decided', -, -⟩ | ⟨d', decided', answer, done⟩
  · rw [decided] at decided'
    cases decided'
  · rw [decided] at decided'
    cases decided'
    refine ⟨answer.trans outcome, done.ledger.trans ledger, ?_⟩
    rw [done.rows]
    exact rows

/-- **Recovery.** Take a snapshot at the end of any orderly run. It can be taken, and since what is
in memory can be counted, it reads back from its bytes. Load it at the end of any orderly run of a
machine of the same queue and with the same options, which may be fresh, or the same machine after
more calls; and let the version of the view that was pinned be whatever it may. Then loading
succeeds, the ledger and the rows of the queue are those at which the snapshot was taken, and all
later replays get the answers, and lead to the ledger and the rows, that they would have from
there. -/
theorem Reached.recovers {queue : QueueId} {config : Config} {host host' : Host} {m t : Moment}
    (distinct : config.distinct)
    (bare : ∀ a, Owned config queue a → host.store.rows.get a.space a.key = none)
    (bare' : ∀ a, Owned config queue a → host'.store.rows.get a.space a.key = none)
    (answers : host.Answers) (answers' : host'.Answers)
    (run : Reached Moment.Orderly (.start queue config host) m)
    (run' : Reached Moment.Orderly (.start queue config host') t) :
    ∃ s, (Act.takeSnapshot m.site).1 = .ok s ∧
      (m.site.Countable → Snapshot.decode s.encode = .ok s) ∧
      ∀ version,
        let (answer, loaded) := Act.loadSnapshot { s with storeVersion := version } t.site
        answer = .ok () ∧ m.site.Alike loaded ∧
          ∀ operations,
            (Act.replayAll operations loaded).1 = (Act.replayAll operations m.site).1 ∧
              (Act.replayAll operations m.site).2.Alike (Act.replayAll operations loaded).2 := by
  obtain ⟨live, k⟩ := Moment.kept_of_reached distinct bare run
  obtain ⟨live', k'⟩ := Moment.kept_of_reached distinct bare' run'
  have distinct' : m.site.ledger.config.distinct := by rw [k.config_eq]; exact distinct
  have sourceAnswers := Moment.answers_of_reached answers run
  have targetAnswers := Moment.answers_of_reached answers' run'
  obtain ⟨s, taken, depicts⟩ := Act.takeSnapshot_depicts distinct' k.inFlight sourceAnswers
  refine ⟨s, taken, fun countable => ?_, fun version => ?_⟩
  · have bytes := Snapshot.decode_encode (depicts.sized countable) []
    rwa [List.append_nil] at bytes
  · -- The version is no part of what a snapshot shows.
    have shown : Snapshot.Depicts { s with storeVersion := version } m.site.ledger m.site.rows :=
      ⟨depicts.cursor, depicts.groups, depicts.checkPoints⟩
    obtain ⟨answer, alike⟩ := Act.loadSnapshot_alike distinct' (k'.queue_eq.trans k.queue_eq.symm)
      (k'.config_eq.trans k.config_eq.symm) shown (Moment.tracked_of_reached run) k.inFlight
      k'.inFlight targetAnswers
    have loadedAnswers := (Act.loadSnapshot_does { s with storeVersion := version }).answers
      targetAnswers
    exact ⟨answer, alike, Act.replayAll_alike alike sourceAnswers loadedAnswers⟩

/-- A snapshot with an ordered delivery in flight, loaded after that was acknowledged, brings its
five rows back. -/
theorem Reached.recovers_settled :
    let pop : Pop := ⟨⟨1, 0⟩, 5, 9, 3, .order, 1000, 500, false, 0⟩
    let marked : Pop := ⟨⟨1, 0⟩, 5, 4, 2, .normal, 1000, 500, true, 0⟩
    let ack : Ack := ⟨⟨1, 0⟩, 1, .normal, 1100⟩
    let popped : Moment := (Moment.start ⟨1, 0⟩ .standard .fresh).after (.replay 1 (.pop pop))
    let m : Moment := popped.after (.replay 2 (.pop marked))
    let t : Moment := (m.after .takeSnapshot).after (.replay 3 (.ack ack))
    m.site.rows.size = 5 ∧ t.site.rows.size = 0 ∧
      ∃ s, (Act.takeSnapshot m.site).1 = .ok s ∧ Snapshot.decode s.encode = .ok s ∧
        m.site.Alike (Act.loadSnapshot { s with storeVersion := 7 } t.site).2 := by
  intro pop marked ack popped m t
  have empty (a : Address) : Host.fresh.store.rows.get a.space a.key = none := by
    simp [Host.fresh, Store.empty, Rows.get]
  have first : Ledger.Above (.empty ⟨1, 0⟩ .standard) 1 := by decide
  have second : popped.site.ledger.Above 2 := by decide +kernel
  have third : (m.after .takeSnapshot).site.ledger.Above 3 := by decide +kernel
  have run : Reached Moment.Orderly (.start ⟨1, 0⟩ .standard .fresh) popped :=
    Reached.start.call (.replay 1 (.pop pop)) first
  have run : Reached Moment.Orderly (.start ⟨1, 0⟩ .standard .fresh) m :=
    run.call (.replay 2 (.pop marked)) second
  have later : Reached Moment.Orderly m (m.after .takeSnapshot) :=
    Reached.start.call .takeSnapshot trivial
  have later : Reached Moment.Orderly m t := later.call (.replay 3 (.ack ack)) third
  have rows : m.site.rows.size = 5 := by decide +kernel
  have gone : t.site.rows.size = 0 := by decide +kernel
  have countable : m.site.Countable := by
    have groups : m.site.ledger.groups.size = 1 := by decide +kernel
    refine ⟨?_, ?_⟩
    · rw [groups]; decide
    · rw [rows]; decide
  obtain ⟨s, taken, bytes, loads⟩ := Reached.recovers (by decide) (fun a _ => empty a)
    (fun a _ => empty a) (fun _ _ => rfl) (fun _ _ => rfl) run (run.trans later)
  exact ⟨rows, gone, s, taken, bytes countable, (loads 7).2.1⟩

end QueueLedger
