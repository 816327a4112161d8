import Mathlib.Data.List.Sort
import QueueLedger.Store.Range
/-!
# The rows of a range

Looking for a range in an ascending list skips what lies below it and stops at the first key past
it. That finds exactly the keys that the range means, because all bounds cut an ascending list at
one place: what has leading bytes in common lies together (`Bytes.isPrefixOf_of_between`).
-/

namespace QueueLedger

namespace Bytes

theorem upTo_trans {a b c : Bytes} (h : a.upTo b = true) (h' : b.upTo c = true) :
    a.upTo c = true :=
  Std.TransCmp.isLE_trans h h'

theorem upTo_of_before {a b : Bytes} (h : a.before b = true) : a.upTo b = true := by
  unfold before upTo at *
  cases hc : compare a b <;> simp_all

theorem not_before_iff {a b : Bytes} : a.before b = false ↔ b.upTo a = true := by
  rw [before_eq_not_upTo]
  cases b.upTo a <;> simp

theorem before_of_before_of_upTo {a b c : Bytes} (h : a.before b = true) (h' : b.upTo c = true) :
    a.before c = true := by
  rw [before_eq_not_upTo, Bool.not_eq_true'] at h ⊢
  rw [Bool.eq_false_iff] at h ⊢
  exact fun back => h (upTo_trans h' back)

/-- Leading bytes lie before what they lead. -/
theorem upTo_of_isPrefixOf {stem key : Bytes} (h : stem.isPrefixOf key = true) :
    stem.upTo key = true := by
  induction stem generalizing key with
  | nil => exact List.isLE_compare_nil_left
  | cons d stem ih =>
    cases key with
    | nil => cases h
    | cons e key =>
      rw [List.isPrefixOf_cons_cons, Bool.and_eq_true, beq_iff_eq] at h
      obtain ⟨rfl, h⟩ := h
      rw [upTo, List.compare_cons_cons, Std.ReflOrd.compare_self]
      exact ih h

/-- What lies between leading bytes and something that they lead is led by them. -/
theorem isPrefixOf_of_between {stem a b : Bytes} (low : stem.upTo a = true) (high : a.upTo b = true)
    (h : stem.isPrefixOf b = true) : stem.isPrefixOf a = true := by
  induction stem generalizing a b with
  | nil => rfl
  | cons d stem ih =>
    cases b with
    | nil => cases h
    | cons e b =>
      rw [List.isPrefixOf_cons_cons, Bool.and_eq_true, beq_iff_eq] at h
      obtain ⟨rfl, h⟩ := h
      cases a with
      | nil => cases low
      | cons c a =>
        unfold upTo at low high
        rw [List.compare_cons_cons] at low high
        -- The first byte is neither above nor below that of both neighbours.
        have first : compare d c = .eq := by
          have swap : compare c d = (compare d c).swap := Std.OrientedCmp.eq_swap
          rw [swap] at high
          cases hdc : compare d c with
          | lt => rw [hdc] at high; cases high
          | eq => rfl
          | gt => rw [hdc] at low; cases low
        obtain rfl := Std.LawfulEqCmp.eq_of_compare first
        rw [first] at low high
        rw [List.isPrefixOf_cons_cons, beq_self_eq_true, Bool.true_and]
        exact ih low high h

theorem upTo_later {a b c : Bytes} :
    (a.later b).upTo c = true ↔ a.upTo c = true ∧ b.upTo c = true := by
  unfold later
  split
  next h => exact ⟨fun h' => ⟨upTo_trans (upTo_of_before h) h', h'⟩, fun h' => h'.2⟩
  next h =>
    have h := not_before_iff.1 (Bool.eq_false_iff.2 h)
    exact ⟨fun h' => ⟨h', upTo_trans h h'⟩, fun h' => h'.1⟩

end Bytes

namespace Range

/-- The order in which a visit meets rows. -/
def Ascending (rows : List (Bytes × Bytes)) : Prop :=
  rows.Pairwise fun a b => a.1.before b.1 = true

variable {α : Type} {R : α → α → Prop} {p : α → Bool} {l : List α}

theorem dropWhile_eq_filter (sorted : l.Pairwise R)
    (down : ∀ a b, R a b → p b = true → p a = true) :
    l.dropWhile p = l.filter fun a => !p a := by
  induction sorted with
  | nil => rfl
  | @cons a l above sorted ih =>
    rw [List.dropWhile_cons, List.filter_cons]
    cases ha : p a with
    | true => exact ih
    | false =>
      have rest : ∀ b ∈ l, (!p b) = true := by
        intro b hb
        cases hp : p b with
        | false => rfl
        | true => rw [down a b (above b hb) hp] at ha; cases ha
      rw [if_neg Bool.false_ne_true, Bool.not_false, if_pos rfl, List.filter_eq_self.2 rest]

theorem takeWhile_eq_filter (sorted : l.Pairwise R)
    (down : ∀ a ∈ l, ∀ b ∈ l, R a b → p b = true → p a = true) : l.takeWhile p = l.filter p := by
  induction sorted with
  | nil => rfl
  | @cons a l above sorted ih =>
    rw [List.takeWhile_cons, List.filter_cons]
    cases ha : p a with
    | true =>
      rw [if_pos rfl, if_pos rfl, ih fun b hb c hc => down b (List.mem_cons_of_mem a hb) c
        (List.mem_cons_of_mem a hc)]
    | false =>
      have rest : ∀ b ∈ l, ¬ p b = true := by
        intro b hb hp
        rw [down a List.mem_cons_self b (List.mem_cons_of_mem a hb) (above b hb) hp] at ha
        cases ha
      rw [if_neg Bool.false_ne_true, if_neg Bool.false_ne_true, List.filter_eq_nil_iff.2 rest]

@[simp] theorem holds_under (stem key : Bytes) : (under stem).holds key = stem.isPrefixOf key := by
  simp [holds, under, fromStart, beforeStop, inStem]

theorem not_below_iff (r : Range) (key : Bytes) :
    r.below key = false ↔
      r.fromStart key = true ∧ ∀ stem, r.stem = some stem → stem.upTo key = true := by
  obtain ⟨stem, start, stop⟩ := r
  cases start <;> cases stem <;>
    simp [below, lower, fromStart, Bytes.not_before_iff, Bytes.upTo_later]

/-- The keys of a range are those that are not below it and not past it. -/
theorem holds_eq (r : Range) (key : Bytes) :
    r.holds key = (!r.below key && (r.beforeStop key && r.inStem key)) := by
  rw [Bool.eq_iff_iff]
  simp only [holds, Bool.and_eq_true, Bool.not_eq_true', not_below_iff]
  constructor
  · intro h
    obtain ⟨⟨from_start, before_stop⟩, stem⟩ := h
    refine ⟨⟨from_start, fun s hs => ?_⟩, before_stop, stem⟩
    rw [inStem, hs] at stem
    exact Bytes.upTo_of_isPrefixOf stem
  · intro h
    obtain ⟨⟨from_start, -⟩, before_stop, stem⟩ := h
    exact ⟨⟨from_start, before_stop⟩, stem⟩

/-- In an ascending list a range selects the rows whose keys it means. -/
theorem select_eq_filter (r : Range) {rows : List (Bytes × Bytes)} (sorted : Ascending rows) :
    r.select rows = rows.filter fun row => r.holds row.1 := by
  have skip :
      (rows.dropWhile fun row => r.below row.1) = rows.filter fun row => !r.below row.1 := by
    refine dropWhile_eq_filter sorted fun a b before below => ?_
    rw [Range.below] at below ⊢
    cases lower : r.lower with
    | none => rw [lower] at below; cases below
    | some low =>
      rw [lower] at below
      exact Bytes.before_of_before_of_upTo before (Bytes.upTo_of_before below)
  unfold select
  -- The bounds that end a visit cut only what `skip` has left.
  rw [skip, takeWhile_eq_filter (sorted.filter _), List.filter_filter]
  · exact List.filter_congr fun row _ => by rw [holds_eq, Bool.and_comm]
  · intro a ha b hb before inside
    rw [List.mem_filter, Bool.not_eq_true', not_below_iff] at ha
    rw [Bool.and_eq_true] at inside ⊢
    obtain ⟨before_stop, stem⟩ := inside
    constructor
    · unfold beforeStop at before_stop ⊢
      cases stop : r.stop with
      | none => rfl
      | some stop' =>
        rw [stop] at before_stop
        exact Bytes.before_of_before_of_upTo before (Bytes.upTo_of_before before_stop)
    · unfold inStem at stem ⊢
      cases hs : r.stem with
      | none => rfl
      | some s =>
        rw [hs] at stem
        exact Bytes.isPrefixOf_of_between (ha.2.2 s hs) (Bytes.upTo_of_before before) stem

end Range

namespace Rows

/-- The listed rows of a namespace ascend. -/
theorem ascending_inSpace (r : Rows) (space : String) : Range.Ascending (r.inSpace space) := by
  refine (Std.ExtTreeMap.ordered_keys_toList (t := r)).filterMap _ ?_
  rintro ⟨a, v⟩ ⟨b, w⟩ before row hrow row' hrow'
  dsimp only at hrow hrow'
  split at hrow
  next ha =>
    split at hrow'
    next hb =>
      cases hrow
      cases hrow'
      have lex : compareLex (compareOn Address.space) (compareOn Address.key) a b = .lt := before
      have same : compareOn Address.space a b = .eq := by
        rw [compareOn, ha, hb]
        exact Std.ReflCmp.compare_self
      rw [compareLex, same] at lex
      show (compare a.key b.key).isLT = true
      rw [show compare a.key b.key = .lt from lex]
      rfl
    next => cases hrow'
  next => cases hrow

/-- What a visit of a range meets. -/
theorem mem_select {r : Rows} {range : Range} {space : String} {k v : Bytes} :
    (k, v) ∈ range.select (r.inSpace space) ↔ r.get space k = some v ∧ range.holds k = true := by
  rw [range.select_eq_filter (r.ascending_inSpace space), List.mem_filter, mem_inSpace]

theorem ascending_select (r : Rows) (range : Range) (space : String) :
    Range.Ascending (range.select (r.inSpace space)) := by
  have ascending := r.ascending_inSpace space
  rw [range.select_eq_filter ascending]
  exact ascending.filter fun row => range.holds row.1

/-- Stores that agree on the keys of a range show the same rows in it. -/
theorem select_congr {r r' : Rows} {range : Range} {space : String}
    (same : ∀ key, range.holds key = true → r.get space key = r'.get space key) :
    range.select (r.inSpace space) = range.select (r'.inSpace space) := by
  -- Both lists ascend, so it is enough that they have the same members.
  have : Std.Irrefl fun a b : Bytes × Bytes => a.1.before b.1 = true := ⟨fun a => by simp⟩
  have : Std.Antisymm fun a b : Bytes × Bytes => a.1.before b.1 = true := by
    refine ⟨fun a b before back => ?_⟩
    have loop := Bytes.before_of_before_of_upTo before (Bytes.upTo_of_before back)
    simp at loop
  refine (r.ascending_select range space).eq_of_mem_iff (r'.ascending_select range space) ?_
  rintro ⟨k, v⟩
  rw [mem_select, mem_select]
  constructor
  · rintro ⟨row, inside⟩
    exact ⟨(same k inside).symm.trans row, inside⟩
  · rintro ⟨row, inside⟩
    exact ⟨(same k inside).trans row, inside⟩

end Rows

end QueueLedger
