import QueueLedger.Proofs.EveryGroup
import QueueLedger.Proofs.Restoring
/-!
# Groups and their images

The image of a group leaves things out: its id and its ack offsets stand in the counters only, and
the threshold stands nowhere. Nothing is lost, because a ledger keeps the counters of each group
in step with its watermarks (`Ledger.Tracked`). So restoring the images of a ledger gives back its
groups (`Ledger.restoreGroups_images`).
-/

namespace QueueLedger

/-- A group stands under its own id, its counters hold the ack offsets of its watermarks, and its
watermarks have the threshold of the ledger. -/
structure Group.Tracks (s : Group) (g threshold : UInt64) : Prop where
  group : s.counters.group = g
  acked : ∀ path, s.counters.acked path = (s.watermark path).ackOffset
  threshold : ∀ path, (s.watermark path).threshold = threshold

namespace Group

variable {s s' : Group} {g threshold : UInt64} {path : Path}

theorem tracks_fresh (g threshold : UInt64) : (fresh g threshold).Tracks g threshold where
  group := rfl
  acked path := by cases path <;> rfl
  threshold path := by cases path <;> rfl

theorem Tracks.advance (h : s.Tracks g threshold) (path : Path) (next : UInt64) :
    (s.advance path next).Tracks g threshold where
  group := (GroupCounters.group_advance s.counters path next).trans h.group
  acked other := by
    rw [watermark_advance, ← h.acked other]
    exact GroupCounters.acked_advance s.counters path other next
  threshold other := by
    rw [watermark_advance]
    exact h.threshold other

/-- The counters follow what is committed. -/
theorem Tracks.commit (h : s.Tracks g threshold) {o : UInt64} {c : Watermark.Commit}
    (ok : s.commit path o = .ok (s', c)) : s'.Tracks g threshold := by
  unfold Group.commit at ok
  cases hc : (s.watermark path).commit o with
  | error e =>
    rw [hc] at ok
    cases ok
  | ok c' =>
    rw [hc] at ok
    dsimp only at ok
    obtain ⟨limit, told⟩ := Watermark.commit_told hc
    have limits (other : Path) :
        ((s.withWatermark path c'.next).watermark other).threshold = threshold := by
      rw [watermark_withWatermark]
      split
      · exact limit.trans (h.threshold path)
      · exact h.threshold other
    have group : (s.withWatermark path c'.next).counters.group = g := by
      rw [counters_withWatermark]
      exact h.group
    -- The counter is set exactly if the watermark tells of a move; else both stay.
    rcases told with ⟨still, same⟩ | moved
    · rw [still] at ok
      cases ok
      refine ⟨group, fun other => ?_, limits⟩
      rw [counters_withWatermark, watermark_withWatermark]
      split
      next eq => rw [← eq, same, h.acked path]
      next => exact h.acked other
    · rw [moved] at ok
      cases ok
      refine ⟨?_, fun other => ?_, fun other => ?_⟩
      · exact (GroupCounters.group_withAck _ path _).trans group
      · rw [watermark_withCounters, watermark_withWatermark, GroupCounters.acked_withAck,
          counters_withWatermark]
        split
        · rfl
        · exact h.acked other
      · rw [watermark_withCounters]
        exact limits other

theorem tracks_lasting (threshold : UInt64) :
    Lasting threshold fun g s => s.Tracks g threshold where
  fresh g := tracks_fresh g threshold
  advance h path next := h.advance path next
  commit h ok := h.commit ok

/-- A group reads back from its image. -/
theorem Tracks.restore_image (h : s.Tracks g threshold) : restore s.image threshold = .ok s := by
  have restored (path : Path) :
      Watermark.restore (s.counters.acked path) (s.watermark path).base
        (s.watermark path).bitmapBytes threshold = .ok (s.watermark path) := by
    rw [h.acked path, Watermark.restore_eq, ← h.threshold path]
  have data : Watermark.restore s.counters.ack s.data.base s.data.bitmapBytes threshold =
      .ok s.data := restored .data
  have retry : Watermark.restore s.counters.retryAck s.retry.base s.retry.bitmapBytes threshold =
      .ok s.retry := restored .retry
  unfold restore image
  rw [data, retry]

/-- A restored group is in step with its watermarks, whatever the image. -/
theorem tracks_of_restore {i : GroupImage} (ok : restore i threshold = .ok s) :
    s.Tracks i.counters.group threshold := by
  obtain ⟨data, retry, -, -, rfl⟩ := restore_eq_ok ok
  refine ⟨rfl, fun path => ?_, fun path => ?_⟩
  · cases path <;> rfl
  · cases path <;> rfl

end Group

namespace Ledger

variable {l : Ledger} {g : UInt64}

/-- Every group is in step with its watermarks. -/
def Tracked (l : Ledger) : Prop :=
  ∀ g s, l.groups.get? g = some s → s.Tracks g l.config.rebaseThreshold

theorem tracked_empty (queue : QueueId) (config : Config) : (empty queue config).Tracked :=
  every_empty queue config

theorem Tracked.group (h : l.Tracked) (g : UInt64) :
    (l.group g).Tracks g l.config.rebaseThreshold :=
  Every.group (Group.tracks_lasting _) h g

theorem Tracked.withGroup (h : l.Tracked) {s : Group} (hs : s.Tracks g l.config.rebaseThreshold) :
    (l.withGroup g s).Tracked :=
  Every.withGroup h hs

theorem Tracked.deliver (h : l.Tracked) (g : UInt64) (path : Path) (o : UInt64) :
    (l.deliver g path o).Tracked :=
  Every.deliver (Group.tracks_lasting _) h g path o

/-! ### Restoring -/

/-- Restoring the images one by one inserts the groups one by one. -/
theorem foldlM_putImage {config : Config} {rows : List (UInt64 × Group)}
    (tracks : ∀ row ∈ rows, row.2.Tracks row.1 config.rebaseThreshold)
    (m : Std.ExtTreeMap UInt64 Group) :
    (rows.map fun row => row.2.image).foldlM (putImage config) m = .ok (m.insertMany rows) := by
  induction rows generalizing m with
  | nil => rfl
  | cons row rows ih =>
    have first := tracks row List.mem_cons_self
    have put : putImage config m row.2.image = .ok (m.insert row.1 row.2) := by
      rw [putImage, first.restore_image, show row.2.image.counters.group = row.1 from first.group]
    rw [List.map_cons, List.foldlM_cons, put, Std.ExtTreeMap.insertMany_cons]
    exact ih (fun row' h' => tracks row' (List.mem_cons_of_mem row h')) (m.insert row.1 row.2)

/-- **The groups of a ledger read back from their images.** -/
theorem Tracked.restoreGroups_images (h : l.Tracked) :
    restoreGroups l.config l.images = .ok l.groups := by
  have tracks : ∀ row ∈ l.groups.toList, row.2.Tracks row.1 l.config.rebaseThreshold := by
    intro row hrow
    exact h row.1 row.2 (Std.ExtTreeMap.mem_toList_iff_getElem?_eq_some.1 hrow)
  rw [restoreGroups_eq]
  refine (foldlM_putImage tracks ∅).trans (congrArg Except.ok ?_)
  -- No id is listed twice, so no insertion undoes another.
  refine Std.ExtTreeMap.ext_getElem? fun g => ?_
  cases known : l.groups[g]? with
  | some s =>
    have row := Std.ExtTreeMap.mem_toList_iff_getElem?_eq_some.2 known
    exact Std.ExtTreeMap.getElem?_insertMany_list_of_mem Std.ReflCmp.compare_self
      Std.ExtTreeMap.distinct_keys_toList row
  | none =>
    have absent : (l.groups.toList.map Prod.fst).contains g = false := by
      rw [Bool.eq_false_iff]
      intro present
      obtain ⟨row, hrow, same⟩ := List.mem_map.1 (List.contains_iff_mem.1 present)
      subst same
      have found := Std.ExtTreeMap.mem_toList_iff_getElem?_eq_some.1 hrow
      rw [known] at found
      cases found
    rw [Std.ExtTreeMap.getElem?_insertMany_list_of_contains_eq_false absent]
    exact Std.ExtTreeMap.getElem?_empty

end Ledger

end QueueLedger
