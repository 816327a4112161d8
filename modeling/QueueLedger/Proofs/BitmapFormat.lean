import Mathlib.Data.List.Sort
import QueueLedger.Bitmap.Portable
import QueueLedger.Proofs.Readers
/-!
# Bitmaps read back

What is written of a bitmap is read back as the same bitmap.

## Proof shape

Writing goes through containers. Those of an ascending list of indices are well formed
(`Container.Formed`), they stand in ascending order of their high halves, and their indices put
together are the list (`ofIndices_spec`). A well-formed container reads back in either layout; the
bit set is the one that takes an argument (`ofBitSet_bitSet`).
-/

namespace QueueLedger.Bitmap

namespace Container

/-- A container as it is written: the halves fit 16 bits, and there are low halves, in ascending
order. -/
structure Formed (c : Container) : Prop where
  /-- The high half fits. -/
  high_lt : c.high < 65536
  /-- The low halves fit. -/
  lows_lt : ∀ low ∈ c.lows, low < 65536
  /-- There is one. -/
  ne_nil : c.lows ≠ []
  /-- They ascend. -/
  sorted : c.lows.Pairwise (· < ·)

/-- The index with a given high half and low half. -/
def index (high low : Nat) : UInt32 := UInt32.ofNat (high * 65536 + low)

theorem toNat_index {high low : Nat} (hh : high < 65536) (hl : low < 65536) :
    (index high low).toNat = high * 65536 + low := by
  have size : UInt32.size = 65536 * 65536 := rfl
  exact UInt32.toNat_ofNat_of_lt' (by omega)

theorem index_halves (i : UInt32) : index (i.toNat / 65536) (i.toNat % 65536) = i := by
  rw [index, Nat.div_add_mod', UInt32.ofNat_toNat]

theorem indices_eq (c : Container) : c.indices = c.lows.map (index c.high) := rfl

theorem high_lt_of_index (i : UInt32) : i.toNat / 65536 < 65536 := by
  have := i.toNat_lt
  omega

/-! ### The containers of a list -/

/-- Containers in ascending order of high halves, with the indices of a list. -/
structure Covers (cs : List Container) (is : List UInt32) : Prop where
  formed : ∀ c ∈ cs, c.Formed
  sorted : cs.Pairwise fun c c' => c.high < c'.high
  indices : cs.flatMap Container.indices = is

theorem formed_single (i : UInt32) :
    Formed ⟨i.toNat / 65536, [i.toNat % 65536]⟩ where
  high_lt := high_lt_of_index i
  lows_lt low h := by
    obtain rfl := List.mem_singleton.1 h
    exact Nat.mod_lt _ (by decide)
  ne_nil := List.cons_ne_nil _ _
  sorted := List.pairwise_singleton _ _

/-- A container takes an index of its half that is below all its others. -/
theorem Formed.push {c : Container} {i : UInt32} (formed : c.Formed)
    (same : c.high = i.toNat / 65536) (first : ∀ low ∈ c.lows, i.toNat < c.high * 65536 + low) :
    Formed ⟨c.high, i.toNat % 65536 :: c.lows⟩ where
  high_lt := formed.high_lt
  lows_lt low h := by
    rcases List.mem_cons.1 h with rfl | h
    · exact Nat.mod_lt _ (by decide)
    · exact formed.lows_lt low h
  ne_nil := List.cons_ne_nil _ _
  sorted := by
    refine List.pairwise_cons.2 ⟨fun low h => ?_, formed.sorted⟩
    have := first low h
    show i.toNat % 65536 < low
    omega

/-- What is below all indices is below those of the first container. -/
theorem Covers.lt_first {c : Container} {cs : List Container} {is : List UInt32} {i : UInt32}
    (h : Covers (c :: cs) is) (below : ∀ j ∈ is, i < j) :
    ∀ low ∈ c.lows, i.toNat < c.high * 65536 + low := by
  intro low hl
  have formed := h.formed c List.mem_cons_self
  have mem : index c.high low ∈ is := by
    rw [← h.indices, List.flatMap_cons, List.mem_append]
    exact Or.inl (List.mem_map_of_mem hl)
  have lt := UInt32.lt_iff_toNat_lt.1 (below _ mem)
  rwa [toNat_index formed.high_lt (formed.lows_lt low hl)] at lt

/-- An index below all others is put in front. -/
theorem Covers.push {cs : List Container} {is : List UInt32} {i : UInt32} (h : Covers cs is)
    (below : ∀ j ∈ is, i < j) : Covers (push i cs) (i :: is) := by
  cases cs with
  | nil =>
    have none : is = [] := h.indices.symm
    rw [none]
    refine ⟨fun c hc => ?_, List.pairwise_singleton _ _, ?_⟩
    · obtain rfl := List.mem_singleton.1 hc
      exact formed_single i
    · show [index (i.toNat / 65536) (i.toNat % 65536)] = [i]
      rw [index_halves]
  | cons c rest =>
    have formed := h.formed c List.mem_cons_self
    have first := h.lt_first below
    obtain ⟨above, sorted⟩ := List.pairwise_cons.1 h.sorted
    rw [Container.push]
    -- The first container has the half of `i`, or all its indices lie in a later half.
    by_cases same : c.high = i.toNat / 65536
    · rw [if_pos same]
      refine ⟨fun c' hc' => ?_, List.pairwise_cons.2 ⟨above, sorted⟩, ?_⟩
      · rcases List.mem_cons.1 hc' with rfl | hc'
        · exact formed.push same first
        · exact h.formed c' (List.mem_cons_of_mem c hc')
      · rw [← h.indices, List.flatMap_cons, List.flatMap_cons]
        show index c.high (i.toNat % 65536) :: _ = _
        rw [same, index_halves, indices_eq, same]
        rfl
    · rw [if_neg same]
      have less : i.toNat / 65536 < c.high := by
        obtain ⟨low, hl⟩ := List.exists_mem_of_ne_nil _ formed.ne_nil
        have := first low hl
        have := formed.lows_lt low hl
        omega
      refine ⟨fun c' hc' => ?_, ?_, ?_⟩
      · rcases List.mem_cons.1 hc' with rfl | hc'
        · exact formed_single i
        · exact h.formed c' hc'
      · refine List.pairwise_cons.2 ⟨fun c' hc' => ?_, h.sorted⟩
        rcases List.mem_cons.1 hc' with rfl | hc'
        · exact less
        · exact Nat.lt_trans less (above c' hc')
      · rw [List.flatMap_cons, h.indices]
        show index (i.toNat / 65536) (i.toNat % 65536) :: is = i :: is
        rw [index_halves]

theorem ofIndices_spec {is : List UInt32} (sorted : is.Pairwise (· < ·)) :
    Covers (ofIndices is) is := by
  induction sorted with
  | nil => exact ⟨List.forall_mem_nil _, List.Pairwise.nil, rfl⟩
  | cons below sorted ih => exact ih.push below

theorem length_le_of_sorted {l : List Nat} {n : Nat} (sorted : l.Pairwise (· < ·))
    (bound : ∀ m ∈ l, m < n) : l.length ≤ n := by
  have within : l ⊆ List.range n := fun m hm => List.mem_range.2 (bound m hm)
  have len := (List.subperm_of_subset (sorted.imp Nat.ne_of_lt) within).length_le
  rwa [List.length_range] at len

/-- There are no more containers than high halves. -/
theorem Covers.length_le {cs : List Container} {is : List UInt32} (h : Covers cs is) :
    cs.length ≤ containerLimit := by
  have highs : (cs.map Container.high).Pairwise (· < ·) := List.pairwise_map.2 h.sorted
  have bound : ∀ n ∈ cs.map Container.high, n < containerLimit := by
    intro n hn
    obtain ⟨c, hc, rfl⟩ := List.mem_map.1 hn
    exact (h.formed c hc).high_lt
  have len := length_le_of_sorted highs bound
  rwa [List.length_map] at len

theorem Formed.length_le {c : Container} (h : c.Formed) : c.lows.length ≤ 65536 :=
  length_le_of_sorted h.sorted h.lows_lt

/-! ### The bit set -/

theorem testBit_bitSetByte (has : Nat → Bool) {i j : Nat} (hj : j < 8) :
    (bitSetByte has i).toNat.testBit j = has (8 * i + j) := by
  rw [bitSetByte, UInt8.toNat_ofNat', Nat.testBit_mod_two_pow,
    decide_eq_true hj, Bool.true_and, BitVec.testBit_toNat, BitVec.getLsbD_ofBoolListLE]
  simp [hj]

theorem zipIdx_map_range {α : Type} (f : Nat → α) (n : Nat) :
    ((List.range n).map f).zipIdx = (List.range n).map fun i => (f i, i) :=
  List.ext_getElem (by simp) fun i h h' => by simp

theorem flatMap_range_eight (n : Nat) :
    ((List.range n).flatMap fun i => (List.range 8).map (8 * i + ·)) = List.range (8 * n) := by
  induction n with
  | zero => rfl
  | succ n ih =>
    have last : List.range (n + 1) = List.range n ++ [n] := List.range_succ
    rw [last, List.flatMap_append, ih, List.flatMap_singleton, ← List.range_add, Nat.mul_succ]

/-- A bit set reads back as the numbers that it was made of, in ascending order. -/
theorem ofBitSet_bitSet (has : Nat → Bool) :
    ofBitSet (bitSet has) = (List.range (8 * bitSetWidth)).filter has := by
  rw [ofBitSet, bitSet, zipIdx_map_range, List.flatMap_map, ← flatMap_range_eight,
    List.filter_flatMap]
  refine List.flatMap_congr fun i _ => ?_
  rw [List.filter_map]
  refine congrArg _ (List.filter_congr fun j hj => ?_)
  exact testBit_bitSetByte has (List.mem_range.1 hj)

theorem ofBitSet_lows {c : Container} (h : c.Formed) :
    ofBitSet (bitSet fun low => (Std.ExtTreeSet.ofList c.lows).contains low) = c.lows := by
  rw [ofBitSet_bitSet]
  refine (List.pairwise_lt_range.filter _).eq_of_mem_iff h.sorted fun low => ?_
  rw [List.mem_filter, List.mem_range, Std.ExtTreeSet.contains_ofList, List.contains_iff_mem]
  exact ⟨fun h => h.2, fun hl => ⟨h.lows_lt low hl, hl⟩⟩

/-! ### Reading -/

theorem ascending_of_sorted {l : List Nat} (sorted : l.Pairwise (· < ·)) : ascending l = true := by
  induction sorted with
  | nil => rfl
  | @cons n l below sorted ih =>
    cases l with
    | nil => rfl
    | cons m l =>
      rw [ascending, ih, Bool.and_true, decide_eq_true_eq]
      exact below m List.mem_cons_self

/-- The body of a container reads back in the layout that it was written in. -/
theorem takes_readLows {c : Container} (h : c.Formed) :
    Reader.Takes (readLows false c.lows.length) c.body c.lows := by
  unfold readLows body
  rw [if_neg Bool.false_ne_true]
  by_cases small : c.lows.length ≤ listLimit
  · rw [if_pos small, if_pos small]
    have list := Reader.takes_times (x := LittleEndian.read 2) c.lows fun low hl =>
      Reader.takes_littleEndian (h.lows_lt low hl)
    exact list.accept (if_pos (ascending_of_sorted h.sorted))
  · rw [if_neg small, if_neg small]
    have width : (bitSet fun low => (Std.ExtTreeSet.ofList c.lows).contains low).length =
        bitSetWidth := by simp [bitSet]
    have set := (Reader.takes_take width).map ofBitSet
    rw [ofBitSet_lows h] at set
    exact set.accept (if_pos rfl)

theorem takes_readDescription {c : Container} (h : c.Formed) :
    Reader.Takes readDescription c.description (c.high, c.lows.length) := by
  have len := h.length_le
  have pos := List.length_pos_iff.2 h.ne_nil
  have size : Reader.Takes (LittleEndian.read 2) (LittleEndian.encode 2 (c.lows.length - 1))
      (c.lows.length - 1) :=
    Reader.takes_littleEndian (show c.lows.length - 1 < 65536 by omega)
  have fields : Reader.Takes readDescription c.description (c.high, c.lows.length - 1 + 1) :=
    Reader.Takes.bind (f := fun high => LittleEndian.read 2 >>= fun size => pure (high, size + 1))
      (Reader.takes_littleEndian h.high_lt) (size.last fun size => (c.high, size + 1))
  rwa [Nat.sub_add_cancel pos] at fields

theorem takes_readBodies {h : Header} (plain : h.runFlags = []) (i : Nat) (cs : List Container)
    (formed : ∀ c ∈ cs, c.Formed) :
    Reader.Takes (readBodies h i (cs.map fun c => (c.high, c.lows.length)))
      (cs.flatMap body) cs := by
  induction cs generalizing i with
  | nil => exact Reader.takes_pure []
  | cons c cs ih =>
    have runs : h.holdsRuns i = false := by simp [Header.holdsRuns, plain]
    have others := ih (i + 1) fun c' hc' => formed c' (List.mem_cons_of_mem c hc')
    rw [List.map_cons, readBodies, runs, List.flatMap_cons]
    exact (takes_readLows (formed c List.mem_cons_self)).bind
      (others.last fun others => ⟨c.high, c.lows⟩ :: others)

theorem takes_readHeader {n : Nat} (h : n ≤ containerLimit) :
    Reader.Takes readHeader (LittleEndian.encode 4 plainCookie ++ LittleEndian.encode 4 n)
      ⟨n, [], true⟩ := by
  have small : n < Bytes.capacity 4 := Nat.lt_of_le_of_lt h (by decide)
  have number : Reader.Takes
      (LittleEndian.read 4 >>= fun n =>
        if n ≤ containerLimit then pure (⟨n, [], true⟩ : Header) else failure)
      (LittleEndian.encode 4 n ++ []) ⟨n, [], true⟩ := by
    refine (Reader.takes_littleEndian small).bind ?_
    rw [if_pos h]
    exact Reader.takes_pure _
  rw [List.append_nil] at number
  have cookie : plainCookie < Bytes.capacity 4 := by decide
  unfold readHeader
  refine (Reader.takes_littleEndian cookie).bind ?_
  rw [if_pos rfl]
  exact number

theorem length_positions (start : Nat) (cs : List Container) :
    (positions start cs).length = cs.length := by
  induction cs generalizing start with
  | nil => rfl
  | cons c cs ih => rw [positions, List.length_cons, ih, List.length_cons]

end Container

theorem sorted_toList (b : Bitmap) : b.toList.Pairwise (· < ·) :=
  (Std.ExtTreeSet.ordered_toList (t := b)).imp Std.compare_eq_lt.1

/-- The containers of a bitmap read back from its bytes. -/
theorem takes_readContainers (b : Bitmap) :
    Reader.Takes readContainers b.encode (Container.ofIndices b.toList) := by
  have covers := Container.ofIndices_spec (sorted_toList b)
  unfold encode readContainers
  generalize Container.ofIndices b.toList = cs at covers
  dsimp only
  simp only [List.append_assoc]
  rw [← List.append_assoc]
  refine (Container.takes_readHeader covers.length_le).bind ?_
  have descriptions : Reader.Takes (Reader.times readDescription cs.length)
      (cs.flatMap Container.description) (cs.map fun c => (c.high, c.lows.length)) :=
    Reader.takes_times_map cs fun c hc => Container.takes_readDescription (covers.formed c hc)
  refine descriptions.bind ?_
  dsimp only
  rw [if_pos rfl]
  -- The positions of the bodies are skipped; only their number matters.
  refine (Reader.takes_take ?_).bind (Container.takes_readBodies rfl 0 cs covers.formed)
  simp [List.length_flatMap, Container.length_positions, Nat.mul_comm]

/-- **A bitmap reads back from its bytes**, whatever follows them. -/
theorem decode?_encode (b : Bitmap) (rest : Bytes) : decode? (b.encode ++ rest) = some b := by
  have covers := Container.ofIndices_spec (sorted_toList b)
  rw [decode?, takes_readContainers, Option.map_some, Option.some.injEq]
  dsimp only
  rw [covers.indices]
  refine ext fun i => ?_
  rw [Std.ExtTreeSet.mem_ofList, List.contains_iff_mem, Std.ExtTreeSet.mem_toList]

/-! ### The size of the bytes -/

theorem length_flatMap_le {α : Type} {f : α → Bytes} {width : Nat} (as : List α)
    (h : ∀ a ∈ as, (f a).length ≤ width) : (as.flatMap f).length ≤ width * as.length := by
  induction as with
  | nil => simp
  | cons a as ih =>
    have first := h a List.mem_cons_self
    have others := ih fun a' ha' => h a' (List.mem_cons_of_mem a ha')
    rw [List.flatMap_cons, List.length_append, List.length_cons, Nat.mul_succ]
    omega

theorem Container.length_body_le (c : Container) : c.body.length ≤ bitSetWidth := by
  unfold Container.body
  split
  next small =>
    have list : (c.lows.flatMap (LittleEndian.encode 2)).length ≤ 2 * c.lows.length :=
      length_flatMap_le c.lows fun low _ => Nat.le_of_eq (LittleEndian.length_encode 2 low)
    have limits : bitSetWidth = 2 * listLimit := rfl
    omega
  next => simp [bitSet]

/-- The bytes of a bitmap are fewer than a 64-bit length can count. -/
theorem length_encode_lt (b : Bitmap) : b.encode.length < UInt64.size := by
  have covers := Container.ofIndices_spec (sorted_toList b)
  unfold encode
  generalize Container.ofIndices b.toList = cs at covers
  have few := covers.length_le
  have descriptions : (cs.flatMap Container.description).length ≤ 4 * cs.length :=
    length_flatMap_le cs fun c _ => by simp [Container.description]
  have positions : ((Container.positions (8 + 8 * cs.length) cs).flatMap
      (LittleEndian.encode 4)).length ≤ 4 * (Container.positions (8 + 8 * cs.length) cs).length :=
    length_flatMap_le _ fun n _ => Nat.le_of_eq (LittleEndian.length_encode 4 n)
  rw [Container.length_positions] at positions
  have bodies : (cs.flatMap Container.body).length ≤ Container.bitSetWidth * cs.length :=
    length_flatMap_le cs fun c _ => c.length_body_le
  have limits : containerLimit = 65536 ∧ Container.bitSetWidth = 8192 := ⟨rfl, rfl⟩
  have size : UInt64.size = 18446744073709551616 := rfl
  simp only [List.length_append, LittleEndian.length_encode]
  rw [limits.1] at few
  rw [limits.2] at bodies
  omega

end QueueLedger.Bitmap
