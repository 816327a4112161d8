import QueueLedger.Proofs.Readers
import QueueLedger.Snapshot.Wire
/-!
# Snapshots read back

The bytes of a snapshot read back as the snapshot, whatever follows them. Each field has a rule of
its own; the lengths of lists are written as 64-bit numbers, so the lists must not be longer than
such a number says (`Snapshot.Sized`). Lists in memory never are.

The reader of snapshots is also `Steady`, which again is put together from its fields. So bytes
that were cut off are refused, and no snapshot's bytes begin with those of another one
(`Snapshot.encode_exact`).
-/

namespace QueueLedger.Snapshot

/-- The lengths that are written fit 64 bits. -/
structure Sized (s : Snapshot) : Prop where
  /-- The consumer groups can be counted. -/
  groups : s.groups.length < UInt64.size
  /-- The check points can be counted. -/
  checkPoints : s.checkPoints.length < UInt64.size
  /-- The bytes of the bitmaps can be counted. -/
  bitmaps : ∀ g ∈ s.groups, g.bitmap.length < UInt64.size ∧ g.retryBitmap.length < UInt64.size

namespace Wire

open Reader (Takes)

theorem takes_read64 (n : UInt64) : Takes Varint.read64 (Varint.put64 n) n :=
  Varint.read64_put64 n

theorem takes_read32 (n : UInt32) : Takes Varint.read32 (Varint.put32 n) n :=
  Varint.read32_put32 n

theorem takes_readOption (n : Option UInt64) : Takes readOption (putOption n) n := by
  intro rest
  cases n with
  | none => rfl
  | some n =>
    rw [putOption, List.cons_append, readOption]
    simp [Varint.read64_put64]

theorem takes_readKind (k : PopKind) : Takes readKind (putKind k) k := by
  have small : k.tag.toNat < UInt32.size :=
    Nat.lt_trans k.tag.toNat_lt (show 2 ^ 8 < UInt32.size by decide)
  have number : Takes (Varint.read 4) (Varint.encode k.tag.toNat) k.tag.toNat :=
    Varint.read_encode_4 small
  refine number.accept ?_
  rw [if_pos k.tag.toNat_lt, UInt8.ofNat_toNat, PopKind.ofTag?_tag]

theorem takes_readBytes {b : Bytes} (h : b.length < UInt64.size) :
    Takes readBytes (putBytes b) b := by
  intro rest
  rw [putBytes, readBytes, List.append_assoc, Varint.read_encode_8 h]
  exact Reader.take_append b rest

theorem takes_readList {α : Type} {read : Reader α} {put : α → Bytes} {as : List α}
    (len : as.length < UInt64.size) (h : ∀ a ∈ as, Takes read (put a) a) :
    Takes (readList read) (putList put as) as := by
  intro rest
  rw [putList, readList, List.append_assoc, Varint.read_encode_8 len]
  exact Reader.takes_times as h rest

theorem takes_readCheckPoint (c : CheckPoint) : Takes readCheckPoint (putCheckPoint c) c := by
  unfold readCheckPoint putCheckPoint
  refine (takes_read64 _).bind <| (takes_read32 _).bind <| (takes_read64 _).bind <|
    (takes_read32 _).bind <| (takes_read64 _).bind <| (takes_read64 _).bind <|
    (takes_readKind _).bind <| (takes_read64 _).bind <| (takes_read64 _).bind ?_
  exact (takes_read32 c.reconsume).last fun n => { c with reconsume := n }

theorem takes_readGroup {g : GroupImage} (h : g.bitmap.length < UInt64.size)
    (h' : g.retryBitmap.length < UInt64.size) : Takes readGroup (putGroup g) g := by
  unfold readGroup putGroup
  refine (takes_read64 _).bind <| (takes_read64 _).bind <| (takes_read64 _).bind <|
    (takes_read64 _).bind <| (takes_read64 _).bind <| (takes_read64 _).bind <|
    (takes_readBytes h).bind <| (takes_read64 _).bind ?_
  exact (takes_readBytes h').last fun b => { g with retryBitmap := b }

/-! ### Where the reader stops -/

open Reader (Steady)

theorem steady_read (limit : Nat) : Steady (Varint.read limit) := by
  intro b n rest h more
  cases b with
  | nil => cases h
  | cons first b =>
    rw [Varint.read] at h
    rw [List.cons_append, Varint.read]
    split at h
    next small =>
      cases h
      rw [if_pos small]
    next marker =>
      rw [if_neg marker]
      -- The marker has been read, so the width of the number is the same.
      cases announced : Varint.width? first with
      | none =>
        rw [announced] at h
        cases h
      | some width =>
        rw [announced] at h
        dsimp only at h ⊢
        split at h
        next allowed =>
          rw [if_pos allowed]
          exact Reader.steady_littleEndian width b n rest h more
        next => cases h

theorem steady_read64 : Steady Varint.read64 :=
  (steady_read 8).followed (fun n => Reader.steady_pure (UInt64.ofNat n)) fun b => by
    unfold Varint.read64
    cases Varint.read 8 b <;> rfl

theorem steady_read32 : Steady Varint.read32 :=
  (steady_read 4).followed (fun n => Reader.steady_pure (UInt32.ofNat n)) fun b => by
    unfold Varint.read32
    cases Varint.read 4 b <;> rfl

theorem steady_readOption : Steady readOption := by
  intro b n rest h more
  cases b with
  | nil => cases h
  | cons flag b =>
    rw [readOption] at h
    rw [List.cons_append, readOption]
    split at h
    next absent =>
      cases h
      rw [if_pos absent]
    next other =>
      rw [if_neg other]
      split at h
      next present =>
        rw [if_pos present]
        cases word : Varint.read64 b with
        | none =>
          rw [word] at h
          cases h
        | some first =>
          rw [word] at h
          cases h
          rw [steady_read64 b _ _ word more]
      next => cases h

theorem steady_readKind : Steady readKind := (steady_read 4).accept _

theorem steady_readBytes : Steady readBytes :=
  (steady_read 8).followed Reader.steady_take fun b => by
    unfold readBytes
    cases Varint.read 8 b <;> rfl

theorem steady_readList {α : Type} {read : Reader α} (h : Steady read) : Steady (readList read) :=
  (steady_read 8).followed h.times fun b => by
    unfold readList
    cases Varint.read 8 b <;> rfl

theorem steady_readCheckPoint : Steady readCheckPoint := by
  unfold readCheckPoint
  exact steady_read64.bind fun _ => steady_read32.bind fun _ => steady_read64.bind fun _ =>
    steady_read32.bind fun _ => steady_read64.bind fun _ => steady_read64.bind fun _ =>
    steady_readKind.bind fun _ => steady_read64.bind fun _ => steady_read64.bind fun _ =>
    steady_read32.bind fun _ => Reader.steady_pure _

theorem steady_readGroup : Steady readGroup := by
  unfold readGroup
  exact steady_read64.bind fun _ => steady_read64.bind fun _ => steady_read64.bind fun _ =>
    steady_read64.bind fun _ => steady_read64.bind fun _ => steady_read64.bind fun _ =>
    steady_readBytes.bind fun _ => steady_read64.bind fun _ => steady_readBytes.bind fun _ =>
    Reader.steady_pure _

theorem steady_readSnapshot : Steady readSnapshot := by
  unfold readSnapshot
  exact steady_readOption.bind fun _ => steady_read64.bind fun _ =>
    (steady_readList steady_readGroup).bind fun _ =>
    (steady_readList steady_readCheckPoint).bind fun _ => Reader.steady_pure _

end Wire

theorem takes_readSnapshot {s : Snapshot} (h : s.Sized) :
    Reader.Takes Wire.readSnapshot s.encode s := by
  unfold Wire.readSnapshot encode
  refine (Wire.takes_readOption _).bind <| (Wire.takes_read64 _).bind <|
    (Wire.takes_readList h.groups fun g hg =>
      Wire.takes_readGroup (h.bitmaps g hg).1 (h.bitmaps g hg).2).bind ?_
  exact (Wire.takes_readList h.checkPoints fun c _ => Wire.takes_readCheckPoint c).last
    fun cs => { s with checkPoints := cs }

/-- **A snapshot reads back from its bytes**, whatever follows them. -/
theorem decode_encode {s : Snapshot} (h : s.Sized) (rest : Bytes) :
    decode (s.encode ++ rest) = .ok s := by
  rw [decode, takes_readSnapshot h]

/-- Bytes of a snapshot that were cut off are refused. -/
theorem decode_of_cut {s : Snapshot} (h : s.Sized) {front : Bytes} (part : front <+: s.encode)
    (proper : front ≠ s.encode) : decode front = .error (.snapshotDecode .malformed) := by
  have taken := takes_readSnapshot h []
  rw [List.append_nil] at taken
  rw [decode, Wire.steady_readSnapshot.eq_none taken part proper]

/-- **The bytes of snapshots are an exact prefix-free code.** They read back as the snapshot,
whatever follows them; cut off anywhere they are refused; and if they begin with the bytes of a
snapshot, it is the same snapshot. -/
theorem encode_exact {s : Snapshot} (h : s.Sized) :
    (∀ rest, decode (s.encode ++ rest) = .ok s) ∧
      (∀ front, front <+: s.encode → front ≠ s.encode →
        decode front = .error (.snapshotDecode .malformed)) ∧
      ∀ s' : Snapshot, s'.Sized → s'.encode <+: s.encode → s' = s := by
  refine ⟨decode_encode h, fun front => decode_of_cut h, fun s' h' part => ?_⟩
  obtain ⟨rest, same⟩ := part
  have first := decode_encode h' rest
  have second := decode_encode h []
  rw [same] at first
  rw [List.append_nil, first] at second
  injection second

/-- Numbers on both sides of each width, in one group and one check point. -/
def edges : Snapshot where
  cursor := some 251
  storeVersion := 250
  groups := [⟨⟨65535, 65536, 4294967295, 4294967296, 18446744073709551615⟩, 0, [58, 48, 0, 0],
    251, []⟩]
  checkPoints := [⟨⟨250, 4294967295⟩, 65536, 1, 251, 9, .order, 4294967296, 65535, 0⟩]

/-- Followed by another byte, and cut off inside a number. -/
theorem encode_exact_edges :
    edges.Sized ∧ decode (edges.encode ++ [250]) = .ok edges ∧
      decode (edges.encode.take 31) = .error (.snapshotDecode .malformed) := by
  have sized : edges.Sized := by
    refine ⟨by decide, by decide, ?_⟩
    intro g hg
    obtain rfl : g = _ := List.mem_singleton.1 hg
    decide
  obtain ⟨whole, cut, -⟩ := encode_exact sized
  exact ⟨sized, whole [250], cut _ (List.take_prefix 31 _) (by decide +kernel)⟩

end QueueLedger.Snapshot
