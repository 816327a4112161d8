import QueueLedger.Proofs.Run
/-!
# What every group of a ledger keeps

A ledger does three things to a group: it starts one, raises its consume offset, and records an
acknowledgment. A property that these three keep is `Group.Lasting`, and every call of a run keeps
it for all groups (`Command.every_of_decision`). Loading alone puts groups in that come from
elsewhere; there the property must hold of what the images restore to.
-/

namespace QueueLedger

/-- A property of groups under their ids which nothing that a ledger does to a group takes away. -/
structure Group.Lasting (threshold : UInt64) (P : UInt64 → Group → Prop) : Prop where
  /-- It holds of a group that nothing was delivered to. -/
  fresh : ∀ g, P g (.fresh g threshold)
  /-- A delivery keeps it. -/
  advance : ∀ {g s}, P g s → ∀ path next, P g (s.advance path next)
  /-- A recorded acknowledgment keeps it. -/
  commit : ∀ {g s path o s' c}, P g s → s.commit path o = .ok (s', c) → P g s'

namespace Ledger

variable {P : UInt64 → Group → Prop} {l : Ledger}

/-- All groups of the ledger have a property. -/
def Every (P : UInt64 → Group → Prop) (l : Ledger) : Prop :=
  ∀ g s, l.groups.get? g = some s → P g s

theorem every_empty (queue : QueueId) (config : Config) : (empty queue config).Every P := by
  intro g s known
  simp [empty] at known

theorem Every.withGroup (h : l.Every P) {g : UInt64} {s : Group} (hs : P g s) :
    (l.withGroup g s).Every P := by
  intro g' s' known
  rcases get?_insert_cases known with ⟨rfl, rfl⟩ | known
  · exact hs
  · exact h g' s' known

variable (lasting : Group.Lasting l.config.rebaseThreshold P)
include lasting

/-- A group that is not known reads as a fresh one. -/
theorem Every.group (h : l.Every P) (g : UInt64) : P g (l.group g) := by
  rcases l.group_cases g with known | fresh
  · exact h g (l.group g) known
  · rw [fresh]
    exact lasting.fresh g

theorem Every.deliver (h : l.Every P) (g : UInt64) (path : Path) (o : UInt64) :
    (l.deliver g path o).Every P :=
  h.withGroup (lasting.advance (h.group lasting g) path (satAdd o 1))

/-- Recording acknowledgments keeps the property, also if it stops half way. -/
theorem Every.commitEach (h : l.Every P) (g : UInt64) (path : Path) (os : List UInt64) :
    (l.commitEach g path os).2.Every P := by
  induction os generalizing l with
  | nil => exact h
  | cons o os ih =>
    rw [Ledger.commitEach]
    unfold Ledger.commit
    cases hc : (l.group g).commit path o with
    | error e => exact h
    | ok r => exact ih lasting (h.withGroup (lasting.commit (h.group lasting g) hc))

theorem Every.settle (h : l.Every P) (id g : UInt64) (path : Path) (b : Batch)
    (requests : List Request) : (l.settle id g path b requests).ledger.Every P := by
  have after := h.commitEach lasting g path b.offsets
  unfold Ledger.settle
  rcases hc : l.commitEach g path b.offsets with ⟨e | _, l'⟩
  · rw [hc] at after
    exact after
  · rw [hc] at after
    exact after

end Ledger

/-! ### Restored groups -/

/-- A restored group has the offsets and the bits that its image says. -/
theorem Group.restore_eq_ok {i : GroupImage} {threshold : UInt64} {s : Group}
    (ok : restore i threshold = .ok s) :
    ∃ data retry, Bitmap.decode? i.bitmap = some data ∧ Bitmap.decode? i.retryBitmap = some retry ∧
      s = ⟨i.counters, ⟨i.counters.ack, i.base, data, threshold⟩,
        ⟨i.counters.retryAck, i.retryBase, retry, threshold⟩⟩ := by
  unfold restore Watermark.restore at ok
  cases hd : Bitmap.decode? i.bitmap with
  | none => rw [hd] at ok; cases ok
  | some data =>
    cases hr : Bitmap.decode? i.retryBitmap with
    | none => rw [hd, hr] at ok; cases ok
    | some retry =>
      rw [hd, hr] at ok
      cases ok
      exact ⟨data, retry, rfl, rfl, rfl⟩

/-- The bitmaps of an image can be read. -/
def GroupImage.Readable (i : GroupImage) : Prop :=
  (Bitmap.decode? i.bitmap).isSome ∧ (Bitmap.decode? i.retryBitmap).isSome

/-- That is all that restoring asks for. -/
theorem Group.restore_iff {i : GroupImage} {threshold : UInt64} :
    (∃ s, restore i threshold = .ok s) ↔ i.Readable := by
  unfold GroupImage.Readable restore Watermark.restore
  cases Bitmap.decode? i.bitmap with
  | none => simp
  | some data => cases Bitmap.decode? i.retryBitmap <;> simp

namespace Ledger

/-- Restores one more group. -/
def putImage (config : Config) (groups : Std.ExtTreeMap UInt64 Group) (i : GroupImage) :
    Except Failure (Std.ExtTreeMap UInt64 Group) :=
  match Group.restore i config.rebaseThreshold with
  | .error e => .error e
  | .ok s => .ok (groups.insert i.counters.group s)

theorem restoreGroups_eq (config : Config) (images : List GroupImage) :
    restoreGroups config images = images.foldlM (putImage config) ∅ := rfl

/-- Restoring puts the group of each image under the id that the image names, and nothing else. -/
theorem every_of_restoreGroups {P : UInt64 → Group → Prop} {config : Config}
    {images : List GroupImage} {groups : Std.ExtTreeMap UInt64 Group}
    (each : ∀ i ∈ images, ∀ s, Group.restore i config.rebaseThreshold = .ok s →
      P i.counters.group s)
    (ok : restoreGroups config images = .ok groups) :
    ∀ g s, groups.get? g = some s → P g s := by
  have walk (images : List GroupImage)
      (each : ∀ i ∈ images, ∀ s, Group.restore i config.rebaseThreshold = .ok s →
        P i.counters.group s)
      (m : Std.ExtTreeMap UInt64 Group) (hm : ∀ g s, m.get? g = some s → P g s)
      (ok : images.foldlM (putImage config) m = .ok groups) :
      ∀ g s, groups.get? g = some s → P g s := by
    induction images generalizing m with
    | nil =>
      cases ok
      exact hm
    | cons i images ih =>
      rw [List.foldlM_cons] at ok
      obtain ⟨m', first, rest⟩ := bind_eq_ok.1 ok
      unfold putImage at first
      cases hr : Group.restore i config.rebaseThreshold with
      | error e =>
        rw [hr] at first
        cases first
      | ok s =>
        rw [hr] at first
        cases first
        refine ih (fun i' hi' => each i' (List.mem_cons_of_mem i hi')) _ (fun g s' known => ?_) rest
        rcases get?_insert_cases known with ⟨rfl, rfl⟩ | known
        · exact each i List.mem_cons_self s' hr
        · exact hm g s' known
  rw [restoreGroups_eq] at ok
  refine walk images each ∅ (fun g s known => ?_) ok
  simp at known

/-- All groups can be restored exactly if each one can. -/
theorem restoreGroups_iff {config : Config} {images : List GroupImage} :
    (∃ groups, restoreGroups config images = .ok groups) ↔ ∀ i ∈ images, i.Readable := by
  have walk (m : Std.ExtTreeMap UInt64 Group) :
      (∃ groups, images.foldlM (putImage config) m = .ok groups) ↔ ∀ i ∈ images, i.Readable := by
    induction images generalizing m with
    | nil => exact iff_of_true ⟨m, rfl⟩ nofun
    | cons i images ih =>
      have first : (∃ s, Group.restore i config.rebaseThreshold = .ok s) ↔ i.Readable :=
        Group.restore_iff
      rw [List.foldlM_cons, List.forall_mem_cons, putImage, ← first]
      cases hr : Group.restore i config.rebaseThreshold with
      | error e =>
        refine iff_of_false ?_ ?_
        · rintro ⟨groups, ok⟩
          cases ok
        · rintro ⟨⟨s, ok⟩, -⟩
          cases ok
      | ok s => exact (ih (m.insert i.counters.group s)).trans (and_iff_right ⟨s, rfl⟩).symm
  exact walk ∅

end Ledger

/-- Carrying out a decision keeps a lasting property of all groups, if what is loaded has it. -/
theorem Command.every_of_decision {P : UInt64 → Group → Prop} {c : Command} {l : Ledger} {r : Rows}
    {d : Decision} (lasting : Group.Lasting l.config.rebaseThreshold P) (h : l.Every P)
    (loads : ∀ snapshot, c = .load snapshot → ∀ i ∈ snapshot.groups, ∀ s,
      Group.restore i l.config.rebaseThreshold = .ok s → P i.counters.group s)
    (decided : c.decision l r = .ok d) : d.ledger.Every P := by
  match c with
  | .replay id (.pop p) =>
    let l' := l.deliver p.group p.kind.path p.offset
    have delivered : l'.Every P := h.deliver lasting p.group p.kind.path p.offset
    obtain ⟨-, -, ⟨-, -, rfl⟩ | ⟨-, -, rfl⟩⟩ := Ledger.popDecision_eq_ok decided
    · exact Ledger.Every.settle (l := l') lasting delivered id p.group p.kind.path p.batch []
    · exact delivered
  | .replay id (.ack a) =>
    obtain ⟨-, c, -, ⟨-, rfl⟩ | ⟨path, -, -, rfl⟩⟩ := Ledger.ackDecision_eq_ok decided
    · exact h
    · exact h.settle lasting id c.group path c.batch (c.deletes l.config)
  | .replay id (.renewal w) =>
    obtain ⟨-, c, -, rfl⟩ := Ledger.renewDecision_eq_ok decided
    exact h
  | .takeSnapshot =>
    obtain ⟨existing, -, decided⟩ := bind_eq_ok.1 (show l.scanned r >>= _ = _ from decided)
    cases decided
    exact h
  | .load snapshot =>
    obtain ⟨groups, existing, restored, -, -, rfl⟩ := Ledger.loadDecision_eq_ok decided
    exact Ledger.every_of_restoreGroups (loads snapshot rfl) restored
  | .clear =>
    obtain ⟨existing, -, rfl⟩ := Ledger.clearDecision_eq_ok decided
    exact Ledger.every_empty l.queue l.config
  | .release snapshot =>
    cases decided
    exact h

end QueueLedger
