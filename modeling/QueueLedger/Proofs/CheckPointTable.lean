import QueueLedger.Proofs.Decision
import QueueLedger.Proofs.KeyOrder
import QueueLedger.Proofs.RangeVisit
import QueueLedger.Proofs.Tables
/-!
# The table of check points

A scan and a look-up read one table only. So what they find is settled by the check point rows of
the queue alone: `Filed` says that these are the records of a set of check points, each under its
own key, and leaves open what the other two tables hold. It survives calls that would spoil those,
such as a second pop under one operation id.

The keys of one queue ascend with the operation ids, so a scan lists the check points in this
order (`Filed.scanned`).
-/

namespace QueueLedger

/-- The check point rows of a queue are the records of a set of check points. -/
structure Filed (tables : Config) (q : QueueId) (r : Rows) (live : Set CheckPoint) : Prop where
  own : ∀ c ∈ live, c.queue = q
  get_key : ∀ c ∈ live, r.get tables.checkPoints c.key = some c.encode
  of_get : ∀ key value, (CheckPoint.scope q).isPrefixOf key = true →
    r.get tables.checkPoints key = some value → ∃ c ∈ live, key = c.key ∧ value = c.encode

theorem Mirrors.filed {tables : Config} {q : QueueId} {r : Rows} {live : Set CheckPoint}
    (distinct : tables.distinct) (m : Mirrors tables q r live) : Filed tables q r live where
  own := m.own
  get_key _ hc := m.get_checkPoint hc
  of_get _ _ stem row := m.checkPoint_of_get distinct stem row

theorem length_of_mapM_eq_ok {α β : Type} {f : α → Except Failure β} {as : List α} {bs : List β}
    (h : as.mapM f = .ok bs) : bs.length = as.length := by
  induction as generalizing bs with
  | nil =>
    cases h
    rfl
  | cons a as ih =>
    rw [List.mapM_cons] at h
    obtain ⟨b, -, h⟩ := bind_eq_ok.1 h
    obtain ⟨bs', rest, h⟩ := bind_eq_ok.1 h
    cases h
    rw [List.length_cons, List.length_cons, ih rest]

/-- What is read comes from an item of the list. -/
theorem forall_mem_of_mapM_eq_ok {α β : Type} {f : α → Except Failure β} {as : List α} {bs : List β}
    {P : β → Prop} (h : as.mapM f = .ok bs) (each : ∀ a ∈ as, ∀ b, f a = .ok b → P b) :
    ∀ b ∈ bs, P b := by
  induction as generalizing bs with
  | nil =>
    cases h
    simp
  | cons a as ih =>
    rw [List.mapM_cons] at h
    obtain ⟨b, first, h⟩ := bind_eq_ok.1 h
    obtain ⟨bs', rest, h⟩ := bind_eq_ok.1 h
    cases h
    intro b' hb'
    rcases List.mem_cons.1 hb' with rfl | hb'
    · exact each a List.mem_cons_self b' first
    · exact ih rest (fun a' ha' => each a' (List.mem_cons_of_mem a ha')) b' hb'

/-- A scan finds a check point in every row. -/
theorem Ledger.length_of_scanned {l : Ledger} {r : Rows} {cs : List CheckPoint}
    (scan : l.scanned r = .ok cs) :
    cs.length = ((Range.under (CheckPoint.scope l.queue)).select
      (r.inSpace l.config.checkPoints)).length :=
  length_of_mapM_eq_ok scan

/-- Images that are read one by one are read as a list. -/
theorem mapM_map_eq_ok {α β γ : Type} {f : α → β} {read : β → Except Failure γ} {g : α → γ}
    (each : ∀ a, read (f a) = .ok (g a)) (as : List α) : (as.map f).mapM read = .ok (as.map g) := by
  induction as with
  | nil => rfl
  | cons a as ih =>
    rw [List.map_cons, List.mapM_cons, each, ih]
    rfl

/-- A list of images is the image of a list. -/
theorem exists_eq_map {α β : Type} {f : α → β} {P : α → Prop} {bs : List β}
    (h : ∀ b ∈ bs, ∃ a, P a ∧ b = f a) : ∃ as : List α, bs = as.map f ∧ ∀ a ∈ as, P a := by
  induction bs with
  | nil => exact ⟨[], rfl, by simp⟩
  | cons b bs ih =>
    obtain ⟨a, ha, rfl⟩ := h b List.mem_cons_self
    obtain ⟨as, rfl, has⟩ := ih fun b' hb' => h b' (List.mem_cons_of_mem _ hb')
    exact ⟨a :: as, rfl, List.forall_mem_cons.2 ⟨ha, has⟩⟩

/-- Records that were written read back, in order. -/
theorem CheckPoint.mapM_decode {rows : List (Bytes × Bytes)} {P : CheckPoint → Prop}
    (written : ∀ row ∈ rows, ∃ c : CheckPoint, P c ∧ row = (c.key, c.encode)) :
    ∃ cs : List CheckPoint, (rows.mapM fun (_, value) => decode value) = .ok cs ∧
      rows = cs.map fun c => (c.key, c.encode) := by
  obtain ⟨cs, rfl, -⟩ := exists_eq_map written
  refine ⟨cs, ?_, rfl⟩
  refine (mapM_map_eq_ok (g := id) (fun c => ?_) cs).trans ?_
  · exact decode_encode c
  · rw [List.map_id]

namespace Filed

variable {tables : Config} {q : QueueId} {l : Ledger} {r r' : Rows} {live live' : Set CheckPoint}
  {c c' : CheckPoint}

/-- An operation has left at most one check point. -/
theorem eq_of_operation (f : Filed tables q r live) (hc : c ∈ live) (hc' : c' ∈ live)
    (same : c.operation = c'.operation) : c = c' := by
  have key : c.key = c'.key := CheckPoint.keyOf_inj.2 ⟨(f.own c hc).trans (f.own c' hc').symm, same⟩
  have row := f.get_key c hc
  rw [key, f.get_key c' hc', Option.some.injEq] at row
  exact (CheckPoint.encode_inj.1 row).symm

/-- The rows under the leading bytes of the queue are the records of the set. -/
theorem mem_select (f : Filed l.config l.queue r live) {row : Bytes × Bytes} :
    row ∈ (Range.under (CheckPoint.scope l.queue)).select (r.inSpace l.config.checkPoints) ↔
      ∃ c ∈ live, row = (c.key, c.encode) := by
  obtain ⟨k, v⟩ := row
  rw [Rows.mem_select, Range.holds_under]
  constructor
  · intro h
    obtain ⟨get, scope⟩ := h
    obtain ⟨c, hc, rfl, rfl⟩ := f.of_get k v scope get
    exact ⟨c, hc, rfl⟩
  · intro h
    obtain ⟨c, hc, eq⟩ := h
    cases eq
    refine ⟨f.get_key c hc, ?_⟩
    rw [← f.own c hc]
    exact CheckPoint.scope_isPrefixOf_keyOf c.queue c.operation

/-- A scan reads the check points of the set, in ascending order of operation ids. -/
theorem scanned (f : Filed l.config l.queue r live) :
    ∃ cs, l.scanned r = .ok cs ∧ (∀ c, c ∈ cs ↔ c ∈ live) ∧
      cs.Pairwise fun c c' => c.operation < c'.operation := by
  obtain ⟨cs, read, eq⟩ := CheckPoint.mapM_decode fun row h => f.mem_select.1 h
  have mem (c : CheckPoint) : c ∈ cs ↔ c ∈ live := by
    have row : (c.key, c.encode) ∈ cs.map (fun c => (c.key, c.encode)) ↔ c ∈ cs := by
      simp [CheckPoint.encode_inj]
    rw [← row, ← eq, f.mem_select]
    simp [CheckPoint.encode_inj]
  refine ⟨cs, read, mem, ?_⟩
  have keys := r.ascending_select (.under (CheckPoint.scope l.queue)) l.config.checkPoints
  rw [eq, Range.Ascending, List.pairwise_map] at keys
  refine keys.imp_of_mem fun {a b} ha hb before => ?_
  have queue : a.queue = b.queue :=
    (f.own a ((mem a).1 ha)).trans (f.own b ((mem b).1 hb)).symm
  rw [CheckPoint.key, CheckPoint.key, queue] at before
  exact CheckPoint.keyOf_before.1 before

theorem mem_of_scanned (f : Filed l.config l.queue r live) {cs : List CheckPoint}
    (scan : l.scanned r = .ok cs) (c : CheckPoint) : c ∈ cs ↔ c ∈ live := by
  obtain ⟨cs', scan', mem, -⟩ := f.scanned
  rw [scan] at scan'
  cases scan'
  exact mem c

/-- What is found under the id of an operation is the check point that it left. -/
theorem mem_of_found (f : Filed l.config l.queue r live) {id : UInt64}
    (found : l.found r id = .ok c) : c ∈ live ∧ c.operation = id := by
  unfold Ledger.found at found
  cases row : r.get l.config.checkPoints (CheckPoint.keyOf l.queue id) with
  | none => rw [row] at found; cases found
  | some value =>
    rw [row] at found
    obtain ⟨c', hc', key, rfl⟩ :=
      f.of_get _ _ (CheckPoint.scope_isPrefixOf_keyOf l.queue id) row
    dsimp only at found
    rw [CheckPoint.decode_encode] at found
    cases found
    exact ⟨hc', (CheckPoint.keyOf_inj.1 key).2.symm⟩

/-- A check point of the set is found. -/
theorem found_of_mem (f : Filed l.config l.queue r live) (hc : c ∈ live) :
    l.found r c.operation = .ok c := by
  have row := f.get_key c hc
  rw [CheckPoint.key, f.own c hc] at row
  rw [Ledger.found, row]
  exact CheckPoint.decode_encode c

/-- Where the set has no check point, none is found. -/
theorem found_of_forall_ne (f : Filed l.config l.queue r live) {id : UInt64}
    (absent : ∀ c ∈ live, c.operation ≠ id) :
    l.found r id = .error (.checkPointNotFound l.queue id) := by
  unfold Ledger.found
  cases row : r.get l.config.checkPoints (CheckPoint.keyOf l.queue id) with
  | none => rfl
  | some value =>
    obtain ⟨c, hc, key, -⟩ := f.of_get _ _ (CheckPoint.scope_isPrefixOf_keyOf l.queue id) row
    exact absurd (CheckPoint.keyOf_inj.1 key).2.symm (absent c hc)

/-! ### What batches make of the table -/

theorem congr (f : Filed tables q r live)
    (same : ∀ key, r'.get tables.checkPoints key = r.get tables.checkPoints key) :
    Filed tables q r' live where
  own := f.own
  get_key c hc := by rw [same]; exact f.get_key c hc
  of_get key value stem row := f.of_get key value stem (by rw [← same]; exact row)

/-- A row of a delivery in this table is its record. -/
theorem eq_of_mem_rows (distinct : tables.distinct) {key v : Bytes}
    (h : (⟨tables.checkPoints, key⟩, v) ∈ c.rows tables) : key = c.key ∧ v = c.encode := by
  obtain ⟨ct, cl, -⟩ := distinct
  rcases CheckPoint.mem_rows.1 h with ⟨ha, hv⟩ | ⟨ha, -⟩ | ⟨-, o, -, ha, -⟩
  · exact ⟨(Address.mk.inj ha).2, hv⟩
  · exact absurd (Address.mk.inj ha).1 ct
  · exact absurd (Address.mk.inj ha).1 cl

theorem record_mem_rows (c : CheckPoint) (tables : Config) :
    (⟨tables.checkPoints, c.key⟩, c.encode) ∈ c.rows tables :=
  CheckPoint.mem_rows.2 (Or.inl ⟨rfl, rfl⟩)

/-- Taking check points out of the set and putting others in, which push aside what their own
operations have left. -/
theorem replace (distinct : tables.distinct) (f : Filed tables q r live)
    {gone wanted : List CheckPoint} (leave : ∀ c ∈ gone, c ∈ live) (own : ∀ c ∈ wanted, c.queue = q)
    (single : ∀ c ∈ wanted, ∀ c' ∈ wanted, c.operation = c'.operation → c = c')
    (mem : ∀ c, c ∈ live' ↔
      c ∈ wanted ∨ (c ∈ live ∧ c ∉ gone ∧ ∀ w ∈ wanted, w.operation ≠ c.operation)) :
    Filed tables q (r.apply (Act.replacement tables gone wanted)) live' := by
  have written {c : CheckPoint} (hc : c ∈ wanted) :
      (r.apply (Act.replacement tables gone wanted)).get tables.checkPoints c.key =
        some c.encode := by
    refine Act.get_replacement_of_wanted (a := ⟨tables.checkPoints, c.key⟩) hc
      (record_mem_rows c tables) fun c' hc' v h => ?_
    obtain ⟨key, rfl⟩ := eq_of_mem_rows distinct h
    rw [single c hc c' hc' (CheckPoint.keyOf_inj.1 key).2]
  constructor
  case own =>
    intro c hc
    rcases (mem c).1 hc with hc | ⟨hc, -⟩
    · exact own c hc
    · exact f.own c hc
  case get_key =>
    intro c hc
    rcases (mem c).1 hc with hc | ⟨hc, stays, free⟩
    · exact written hc
    · rw [← f.get_key c hc]
      refine Act.get_replacement_of_other (a := ⟨tables.checkPoints, c.key⟩) ?_ ?_
      · rintro ⟨w, hw, v, h⟩
        obtain ⟨key, -⟩ := eq_of_mem_rows distinct h
        exact free w hw (CheckPoint.keyOf_inj.1 key).2.symm
      · rintro ⟨g, hg, v, h⟩
        obtain ⟨key, -⟩ := eq_of_mem_rows distinct h
        rw [f.eq_of_operation hc (leave g hg) (CheckPoint.keyOf_inj.1 key).2] at stays
        exact stays hg
  case of_get =>
    intro key value stem row
    let a : Address := ⟨tables.checkPoints, key⟩
    by_cases put : Act.Touches tables wanted a
    · obtain ⟨c, hc, v, h⟩ := put
      obtain ⟨rfl, -⟩ := eq_of_mem_rows distinct h
      rw [written hc, Option.some.injEq] at row
      exact ⟨c, (mem c).2 (Or.inl hc), rfl, row.symm⟩
    by_cases removed : Act.Touches tables gone a
    · have none := Act.get_replacement_of_gone (r := r) put removed
      rw [none] at row
      cases row
    · have same := Act.get_replacement_of_other (r := r) put removed
      rw [same] at row
      obtain ⟨c, hc, rfl, rfl⟩ := f.of_get key value stem row
      refine ⟨c, (mem c).2 (Or.inr ⟨hc, fun hg => ?_, fun w hw same => ?_⟩), rfl, rfl⟩
      · exact removed ⟨c, hg, _, record_mem_rows c tables⟩
      · refine put ⟨w, hw, w.encode, ?_⟩
        have key : c.key = w.key :=
          CheckPoint.keyOf_inj.2 ⟨(f.own c hc).trans (own w hw).symm, same.symm⟩
        show (⟨tables.checkPoints, c.key⟩, w.encode) ∈ w.rows tables
        rw [key]
        exact record_mem_rows w tables

/-- Removing a delivery removes its record. -/
theorem deletes (distinct : tables.distinct) (f : Filed tables q r live) (hc : c ∈ live) :
    Filed tables q (r.apply (c.deletes tables)) (live \ {c}) := by
  rw [Act.deletes_eq_replacement]
  refine f.replace distinct (fun c' hc' => ?_) (by simp) (by simp) fun c' => by simp
  obtain rfl := List.mem_singleton.1 hc'
  exact hc

/-- In this table a renewal is a new record in the place of the old one. -/
theorem moves (distinct : tables.distinct) (f : Filed tables q r live) (hc : c ∈ live)
    (t : UInt64) : Filed tables q (r.apply (c.moves tables t))
      (insert (c.renewed t) {c' | c' ∈ live ∧ c'.operation ≠ c.operation}) := by
  have replaced : Filed tables q (r.apply (Act.replacement tables [] [c.renewed t]))
      (insert (c.renewed t) {c' | c' ∈ live ∧ c'.operation ≠ c.operation}) := by
    refine f.replace distinct (by simp) (fun w hw => ?_) (by simp) fun c' => ?_
    · obtain rfl := List.mem_singleton.1 hw
      exact f.own c hc
    · simp [CheckPoint.renewed, eq_comm]
  refine replaced.congr fun key => ?_
  obtain ⟨ct, -, -⟩ := id distinct
  let a : Address := ⟨tables.checkPoints, key⟩
  have moved : (r.apply (c.moves tables t)).get a.space a.key = _ := Mirrors.get_moves t
  rw [if_neg fun eq => ct (Address.mk.inj eq).1.symm] at moved
  by_cases here : ⟨tables.checkPoints, c.key⟩ = a
  · rw [if_pos here] at moved
    obtain rfl : c.key = key := (Address.mk.inj here).2
    exact moved.trans (replaced.get_key _ (Or.inl rfl)).symm
  · rw [if_neg here, if_neg fun eq => ct (Address.mk.inj eq).1.symm] at moved
    refine moved.trans (Act.get_replacement_of_other (a := a) ?_ ?_).symm
    · rintro ⟨w, hw, v, h⟩
      obtain rfl := List.mem_singleton.1 hw
      obtain ⟨rfl, -⟩ := eq_of_mem_rows distinct h
      exact here rfl
    · rintro ⟨g, hg, -⟩
      cases hg

end Filed

end QueueLedger
