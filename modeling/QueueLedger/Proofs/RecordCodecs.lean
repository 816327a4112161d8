import QueueLedger.Proofs.HexText
import QueueLedger.Proofs.KeyOrder
/-!
# Records and their bytes

The records of the tables are fields of fixed width, one after the other, and every value of a field
has its bytes. So a byte string of the right length is the encoding of some record, and reading is
exact: it accepts the encodings, gives back what was written, and refuses everything else
(`records_exact`).

Only check points have bytes that are not free: the version in front and the kind of the pop. They
are taken apart from the fields in `CheckPoint.frame`.
-/

namespace QueueLedger

/-! ### Words off the front -/

namespace BigEndian

/-- Byte strings of one length are the digits of the numbers that they denote. -/
theorem encode_decode (b : Bytes) : encode b.length (decode b) = b := by
  have same : decode (encode b.length (decode b)) = decode b := by
    rw [decode_encode, Nat.mod_eq_of_lt (decode_lt b)]
  have order : compare (encode b.length (decode b)) b = .eq := by
    rw [compare_eq_decode (by simp), same]
    exact Std.ReflCmp.compare_self
  exact Std.LawfulEqCmp.eq_of_compare order

theorem exists_put64_eq {b : Bytes} (length : b.length = 8) : ∃ n, b = put64 n := by
  have fits : decode b < UInt64.size := by
    have bound := decode_lt b
    rw [length] at bound
    exact bound
  refine ⟨UInt64.ofNat (decode b), ?_⟩
  rw [put64, UInt64.toNat_ofNat_of_lt' fits, ← length, encode_decode]

theorem exists_put32_eq {b : Bytes} (length : b.length = 4) : ∃ n, b = put32 n := by
  have fits : decode b < UInt32.size := by
    have bound := decode_lt b
    rw [length] at bound
    exact bound
  refine ⟨UInt32.ofNat (decode b), ?_⟩
  rw [put32, UInt32.toNat_ofNat_of_lt' fits, ← length, encode_decode]

/-- A byte string begins with a word, if it is long enough for one. -/
theorem exists_put64_append {b : Bytes} {w : Nat} (length : b.length = 8 + w) :
    ∃ n rest, b = put64 n ++ rest ∧ rest.length = w := by
  obtain ⟨n, front⟩ := exists_put64_eq (b := b.take 8) (by simp [length])
  refine ⟨n, b.drop 8, ?_, by simp [length]⟩
  rw [← front, List.take_append_drop]

theorem exists_put32_append {b : Bytes} {w : Nat} (length : b.length = 4 + w) :
    ∃ n rest, b = put32 n ++ rest ∧ rest.length = w := by
  obtain ⟨n, front⟩ := exists_put32_eq (b := b.take 4) (by simp [length])
  refine ⟨n, b.drop 4, ?_, by simp [length]⟩
  rw [← front, List.take_append_drop]

end BigEndian

/-! ### Exact codecs -/

/-- Writing and reading are inverse to each other. What is read is what was written, what can be
read was written, the byte strings that can be read are those that `formed` names, and all others
are refused as faulty records. -/
structure Codec.Exact {α : Type} (write : α → Bytes) (read : Bytes → Except Failure α)
    (what : String) (formed : Bytes → Prop) : Prop where
  read_write : ∀ v, read (write v) = .ok v
  write_of_read : ∀ b v, read b = .ok v → write v = b
  accepts : ∀ b, (∃ v, read b = .ok v) ↔ formed b
  refuses : ∀ b, ¬ formed b → ∃ fault, read b = .error (.decode what fault)

/-- It is enough that every byte string that `formed` names was written. -/
theorem Codec.exact_of_written {α : Type} {write : α → Bytes} {read : Bytes → Except Failure α}
    {what : String} {formed : Bytes → Prop} (read_write : ∀ v, read (write v) = .ok v)
    (written : ∀ b, formed b → ∃ v, b = write v)
    (refuses : ∀ b, ¬ formed b → ∃ fault, read b = .error (.decode what fault)) :
    Exact write read what formed := by
  have formed_of_read (b : Bytes) (v : α) (h : read b = .ok v) : formed b := by
    by_cases well : formed b
    · exact well
    · obtain ⟨fault, refused⟩ := refuses b well
      rw [refused] at h
      cases h
  refine ⟨read_write, fun b v h => ?_, fun b => ⟨?_, ?_⟩, refuses⟩
  · obtain ⟨v', rfl⟩ := written b (formed_of_read b v h)
    rw [read_write] at h
    cases h
    rfl
  · rintro ⟨v, h⟩
    exact formed_of_read b v h
  · intro well
    obtain ⟨v, rfl⟩ := written b well
    exact ⟨v, read_write v⟩

namespace OrderLock

theorem exact : Codec.Exact value owner what (·.length = 8) := by
  refine Codec.exact_of_written owner_value (fun b length => ?_) fun b length => ?_
  · exact BigEndian.exists_put64_eq length
  · exact ⟨_, if_neg length⟩

end OrderLock

namespace TimerKey

theorem exists_encode {b : Bytes} (length : b.length = width) : ∃ k : TimerKey, b = k.encode := by
  obtain ⟨due, b, rfl, left20⟩ := BigEndian.exists_put64_append (w := 20) length
  obtain ⟨topic, b, rfl, left12⟩ := BigEndian.exists_put64_append (w := 12) left20
  obtain ⟨queue, b, rfl, left8⟩ := BigEndian.exists_put32_append (w := 8) left12
  obtain ⟨operation, rfl⟩ := BigEndian.exists_put64_eq left8
  exact ⟨⟨due, ⟨topic, queue⟩, operation⟩, rfl⟩

theorem exact : Codec.Exact encode decode what (·.length = 28) := by
  refine Codec.exact_of_written decode_encode (fun b length => ?_) fun b length => ?_
  · exact exists_encode length
  · exact ⟨_, if_neg length⟩

end TimerKey

namespace Receipt

theorem exists_encode {b : Bytes} (length : b.length = width) : ∃ r : Receipt, b = r.encode := by
  obtain ⟨group, b, rfl, left28⟩ := BigEndian.exists_put64_append (w := 28) length
  obtain ⟨topic, b, rfl, left20⟩ := BigEndian.exists_put64_append (w := 20) left28
  obtain ⟨queue, b, rfl, left16⟩ := BigEndian.exists_put32_append (w := 16) left20
  obtain ⟨offset, b, rfl, left8⟩ := BigEndian.exists_put64_append (w := 8) left16
  obtain ⟨operation, rfl⟩ := BigEndian.exists_put64_eq left8
  exact ⟨⟨group, ⟨topic, queue⟩, offset, operation⟩, rfl⟩

theorem exact : Codec.Exact encode decode what (·.length = 36) := by
  refine Codec.exact_of_written decode_encode (fun b length => ?_) fun b length => ?_
  · exact exists_encode length
  · exact ⟨_, if_neg length⟩

/-- A text denotes a receipt if it has 72 characters and its pairs are the bytes of the receipt. The
number of bytes of the text, which is checked, is then that of its characters. -/
theorem parse_eq_ok_iff {t : String} {r : Receipt} :
    parse t = .ok r ↔ t.length = 72 ∧ Hex.readPairs Hex.pair? t.toList = some r.encode := by
  unfold parse
  constructor
  · intro read
    split at read
    next checked =>
      obtain ⟨size, ascii⟩ := checked
      rw [Hex.utf8ByteSize_of_ascii (by simpa using ascii)] at size
      split at read
      next b pairs => exact ⟨size, by rw [pairs, exact.write_of_read b r read]⟩
      next => cases read
    next => cases read
  · rintro ⟨length, pairs⟩
    have ascii := (Hex.isSome_readPairs t.toList).1 (Option.isSome_of_mem pairs) |>.ascii
    rw [if_pos ⟨(Hex.utf8ByteSize_of_ascii ascii).trans length, by simpa using ascii⟩, pairs]
    exact decode_encode r

/-- The printed form reads back. -/
theorem parse_text (r : Receipt) : parse r.text = .ok r := by
  rw [parse_eq_ok_iff, text, Hex.encode, String.length_ofList, Hex.length_chars, length_encode,
    String.toList_ofList]
  exact ⟨rfl, Hex.readPairs_chars_of Hex.pair?_digits r.encode⟩

end Receipt

namespace CheckPoint

/-- The bytes of a record with a version and a tag of the kind that need not be known. -/
def frame (version tag : UInt8) (c : CheckPoint) : Bytes :=
  version :: (BigEndian.put64 c.queue.topic ++ (BigEndian.put32 c.queue.queue ++
    (BigEndian.put64 c.offset ++ (BigEndian.put32 c.count ++ (BigEndian.put64 c.group ++
      (BigEndian.put64 c.operation ++ (tag :: (BigEndian.put64 c.delivered ++
        (BigEndian.put64 c.nextVisible ++ BigEndian.put32 c.reconsume)))))))))

theorem encode_eq_frame (c : CheckPoint) : c.encode = frame formatVersion c.kind.tag c := rfl

/-- Every byte string of the right length is framed. -/
theorem exists_frame {b : Bytes} (length : b.length = width) :
    ∃ version tag c, b = frame version tag c := by
  obtain ⟨version, b, rfl⟩ := List.exists_cons_of_length_eq_add_one (n := 61) length
  have left61 : b.length = 61 := Nat.succ.inj length
  obtain ⟨topic, b, rfl, left53⟩ := BigEndian.exists_put64_append (w := 53) left61
  obtain ⟨queue, b, rfl, left49⟩ := BigEndian.exists_put32_append (w := 49) left53
  obtain ⟨offset, b, rfl, left41⟩ := BigEndian.exists_put64_append (w := 41) left49
  obtain ⟨count, b, rfl, left37⟩ := BigEndian.exists_put32_append (w := 37) left41
  obtain ⟨group, b, rfl, left29⟩ := BigEndian.exists_put64_append (w := 29) left37
  obtain ⟨operation, b, rfl, left21⟩ := BigEndian.exists_put64_append (w := 21) left29
  obtain ⟨tag, b, rfl⟩ := List.exists_cons_of_length_eq_add_one (n := 20) left21
  have left20 : b.length = 20 := Nat.succ.inj left21
  obtain ⟨delivered, b, rfl, left12⟩ := BigEndian.exists_put64_append (w := 12) left20
  obtain ⟨nextVisible, b, rfl, left4⟩ := BigEndian.exists_put64_append (w := 4) left12
  obtain ⟨reconsume, rfl⟩ := BigEndian.exists_put32_eq left4
  exact ⟨version, tag, ⟨⟨topic, queue⟩, offset, count, group, operation, .normal, delivered,
    nextVisible, reconsume⟩, rfl⟩

/-- Reading a framed record looks at the version first, and then at the tag. -/
theorem decode_frame (version tag : UInt8) (c : CheckPoint) :
    decode (frame version tag c) =
      if version ≠ formatVersion then .error (.decode what (.version version))
      else
        match PopKind.ofTag? tag with
        | none => .error (.decode what (.popType tag))
        | some kind => .ok { c with kind := kind } := by
  have length : (frame version tag c).length = width := by simp [frame, width]
  have last := BigEndian.split32_put32 c.reconsume []
  rw [List.append_nil] at last
  rw [decode, if_pos length]
  cases kind : PopKind.ofTag? tag <;>
    simp only [ofFields, frame, BigEndian.split8_cons, BigEndian.split64_put64,
      BigEndian.split32_put32, last, kind]

theorem getElem?_frame (version tag : UInt8) (c : CheckPoint) :
    (frame version tag c)[0]? = some version ∧ (frame version tag c)[41]? = some tag := by
  refine ⟨rfl, ?_⟩
  simp [frame]

theorem isSome_ofTag? {tag : UInt8} :
    (PopKind.ofTag? tag).isSome ↔ tag = 0 ∨ tag = 1 ∨ tag = 2 := by
  unfold PopKind.ofTag?
  split
  · simp [*]
  · split
    · simp [*]
    · split <;> simp [*]

theorem exact : Codec.Exact encode decode what fun b => b.length = 62 ∧ b[0]? = some 1 ∧
    (b[41]? = some 0 ∨ b[41]? = some 1 ∨ b[41]? = some 2) := by
  refine Codec.exact_of_written decode_encode ?_ fun b other => ?_
  · rintro b ⟨length, first, kind⟩
    obtain ⟨version, tag, c, rfl⟩ := exists_frame length
    obtain ⟨front, inside⟩ := getElem?_frame version tag c
    rw [front, Option.some.injEq] at first
    simp only [inside, Option.some.injEq] at kind
    obtain ⟨k, known⟩ := Option.isSome_iff_exists.1 (isSome_ofTag?.2 kind)
    refine ⟨{ c with kind := k }, ?_⟩
    rw [encode_eq_frame, first, ← PopKind.tag_of_ofTag? known]
    rfl
  · by_cases length : b.length = width
    · obtain ⟨version, tag, c, rfl⟩ := exists_frame length
      obtain ⟨front, inside⟩ := getElem?_frame version tag c
      rw [decode_frame]
      by_cases first : version = formatVersion
      · rw [if_neg fun differs => differs first]
        have unknown : PopKind.ofTag? tag = none := by
          rw [← Option.not_isSome_iff_eq_none, isSome_ofTag?]
          intro kind
          refine other ⟨length, by rw [front, first]; rfl, ?_⟩
          simpa only [inside, Option.some.injEq] using kind
        rw [unknown]
        exact ⟨_, rfl⟩
      · rw [if_pos first]
        exact ⟨_, rfl⟩
    · exact ⟨_, if_neg length⟩

end CheckPoint

/-! ### The main statement -/

/-- **Records are read exactly.** For check points, receipts, timer keys and the owners of locks,
reading undoes writing, a byte string that can be read is the one that is written for what was read,
and all others are refused as faulty records. Those that can be read are the byte strings of the
right length, for check points with version 1 in front and a tag 0, 1 or 2 in the place of the kind.
And every receipt is read back from its printed form. -/
theorem records_exact :
    Codec.Exact CheckPoint.encode CheckPoint.decode CheckPoint.what (fun b => b.length = 62 ∧
      b[0]? = some 1 ∧ (b[41]? = some 0 ∨ b[41]? = some 1 ∨ b[41]? = some 2)) ∧
    Codec.Exact Receipt.encode Receipt.decode Receipt.what (·.length = 36) ∧
    Codec.Exact TimerKey.encode TimerKey.decode TimerKey.what (·.length = 28) ∧
    Codec.Exact OrderLock.value OrderLock.owner OrderLock.what (·.length = 8) ∧
    ∀ r : Receipt, Receipt.parse r.text = .ok r :=
  ⟨CheckPoint.exact, Receipt.exact, TimerKey.exact, OrderLock.exact, Receipt.parse_text⟩

end QueueLedger
