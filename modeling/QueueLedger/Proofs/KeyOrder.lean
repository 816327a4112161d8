import QueueLedger.CheckPoint
/-!
# The order of keys

Keys are made of big-endian words of fixed width, so that a store which orders them byte by byte
orders them by their fields, the first field first. The check points of one queue therefore lie
in the order of their operations, and the timers of all queues lie in the order of their due times:
those due before a time lie before the bytes of that time (`TimerKey.before_horizon`).

The key of a timer and that of a lock are one more word in front of a key of a check point
(`TimerKey.encode_eq`, `OrderLock.key_eq`), so their order is read off that one.
-/

namespace QueueLedger

namespace Bytes

variable {a b x y : Bytes}

theorem compare_append (length : a.length = b.length) :
    compare (a ++ x) (b ++ y) = (compare a b).then (compare x y) := by
  induction a generalizing b with
  | nil =>
    rw [List.length_nil, eq_comm, List.length_eq_zero_iff] at length
    simp [length]
  | cons d a ih =>
    cases b with
    | nil => simp at length
    | cons e b =>
      simp only [List.cons_append, List.compare_cons_cons, Ordering.then_assoc]
      rw [ih (by simpa using length)]

end Bytes

namespace BigEndian

theorem compare_byte (d e : UInt8) : compare d e = compare d.toNat e.toNat := by
  simp only [compare, compareOfLessAndEq, UInt8.lt_iff_toNat_lt, ← UInt8.toNat_inj]

/-- Byte strings of one length are ordered as the numbers that they denote. -/
theorem compare_eq_decode {a b : Bytes} (length : a.length = b.length) :
    compare a b = compare (decode a) (decode b) := by
  induction a generalizing b with
  | nil =>
    rw [List.length_nil, eq_comm, List.length_eq_zero_iff] at length
    simp [length]
  | cons d a ih =>
    cases b with
    | nil => simp at length
    | cons e b =>
      have same : a.length = b.length := by simpa using length
      have ha := decode_lt a
      have hb := decode_lt b
      rw [← same] at hb
      rw [List.compare_cons_cons, compare_byte, ih same, decode_cons, decode_cons, ← same]
      generalize Bytes.capacity a.length = c at ha hb
      -- The digits in front decide, unless they are equal.
      rcases Nat.lt_trichotomy d.toNat e.toNat with lt | eq | gt
      · have : (d.toNat + 1) * c ≤ e.toNat * c := Nat.mul_le_mul_right c lt
        rw [Nat.add_mul, Nat.one_mul] at this
        have below : d.toNat * c + decode a < e.toNat * c + decode b := by omega
        rw [Nat.compare_eq_lt.2 lt, Nat.compare_eq_lt.2 below]
        rfl
      · rw [eq, Nat.compare_eq_eq.2 rfl, Ordering.then]
        simp only [Nat.compare_eq_ite_lt, Nat.add_lt_add_iff_left]
      · have : (e.toNat + 1) * c ≤ d.toNat * c := Nat.mul_le_mul_right c gt
        rw [Nat.add_mul, Nat.one_mul] at this
        have above : e.toNat * c + decode b < d.toNat * c + decode a := by omega
        rw [Nat.compare_eq_gt.2 gt, Nat.compare_eq_gt.2 above]
        rfl

theorem decode_put64 (n : UInt64) : decode (put64 n) = n.toNat := by
  rw [put64, decode_encode]
  exact Nat.mod_eq_of_lt n.toNat_lt

theorem compare_word64 (m n : UInt64) : compare m n = compare m.toNat n.toNat := by
  simp only [compare, compareOfLessAndEq, UInt64.lt_iff_toNat_lt, ← UInt64.toNat_inj]

theorem compare_word32 (m n : UInt32) : compare m n = compare m.toNat n.toNat := by
  simp only [compare, compareOfLessAndEq, UInt32.lt_iff_toNat_lt, ← UInt32.toNat_inj]

/-- A leading word decides, unless it is the same. -/
theorem compare_put64 (m n : UInt64) (x y : Bytes) :
    compare (put64 m ++ x) (put64 n ++ y) = (compare m n).then (compare x y) := by
  rw [Bytes.compare_append (by simp), compare_eq_decode (by simp), decode_put64, decode_put64,
    compare_word64]

/-- A last word decides alone. -/
theorem compare_put64_last (m n : UInt64) : compare (put64 m) (put64 n) = compare m n := by
  have last := compare_put64 m n [] []
  simpa only [List.append_nil, List.compare_nil_nil, Ordering.then_eq] using last

theorem decode_put32 (n : UInt32) : decode (put32 n) = n.toNat := by
  rw [put32, decode_encode]
  exact Nat.mod_eq_of_lt n.toNat_lt

theorem compare_put32 (m n : UInt32) (x y : Bytes) :
    compare (put32 m ++ x) (put32 n ++ y) = (compare m n).then (compare x y) := by
  rw [Bytes.compare_append (by simp), compare_eq_decode (by simp), decode_put32, decode_put32,
    compare_word32]

end BigEndian

namespace CheckPoint

/-- Keys of check points are ordered by topic, queue and operation id. -/
theorem compare_keyOf (q q' : QueueId) (n n' : UInt64) :
    compare (keyOf q n) (keyOf q' n') =
      (compare q.topic q'.topic).then ((compare q.queue q'.queue).then (compare n n')) := by
  rw [keyOf, keyOf, BigEndian.compare_put64, BigEndian.compare_put32, BigEndian.compare_put64_last]

/-- The keys of one queue are ordered as the operations. -/
theorem keyOf_before {q : QueueId} {m n : UInt64} :
    (keyOf q m).before (keyOf q n) = true ↔ m < n := by
  rw [Bytes.before, compare_keyOf]
  simp [UInt64.lt_iff_toNat_lt, BigEndian.compare_word64, Ordering.isLT_iff_eq_lt,
    Nat.compare_eq_lt]

end CheckPoint

namespace OrderLock

/-- The key of a lock is the group in front of a key with the offset in the place of an operation
id. -/
theorem key_eq (group : UInt64) (q : QueueId) (offset : UInt64) :
    key group q offset = BigEndian.put64 group ++ CheckPoint.keyOf q offset := rfl

/-- Keys of locks are ordered by group, topic, queue and offset. -/
theorem compare_key (g g' : UInt64) (q q' : QueueId) (o o' : UInt64) :
    compare (key g q o) (key g' q' o') =
      (compare g g').then
        ((compare q.topic q'.topic).then ((compare q.queue q'.queue).then (compare o o'))) := by
  rw [key_eq, key_eq, BigEndian.compare_put64, CheckPoint.compare_keyOf]

end OrderLock

namespace TimerKey

/-- The key of a timer is the due time in front of the key of a check point. -/
theorem encode_eq (k : TimerKey) :
    k.encode = BigEndian.put64 k.due ++ CheckPoint.keyOf k.queue k.operation := rfl

/-- Timer keys are ordered by due time, topic, queue and operation id. -/
theorem compare_fields (k k' : TimerKey) :
    compare k k' = (compare k.due k'.due).then ((compare k.queue.topic k'.queue.topic).then
      ((compare k.queue.queue k'.queue.queue).then (compare k.operation k'.operation))) := by
  have fields : compare k k' = (compare k.due k'.due).then
      (((compare k.queue.topic k'.queue.topic).then (compare k.queue.queue k'.queue.queue)).then
        (compare k.operation k'.operation)) := rfl
  rw [fields, Ordering.then_assoc]

/-- The bytes of timer keys are ordered as the keys are. -/
theorem compare_encode (k k' : TimerKey) : compare k.encode k'.encode = compare k k' := by
  rw [encode_eq, encode_eq, BigEndian.compare_put64, CheckPoint.compare_keyOf, compare_fields]

theorem encode_before {k k' : TimerKey} :
    k.encode.before k'.encode = true ↔ compare k k' = .lt := by
  rw [Bytes.before, compare_encode, Ordering.isLT_iff_eq_lt]

/-- A key lies before the bytes of a time exactly if it is due before that time: at the time itself
the rest of the key comes on top. -/
theorem before_horizon {k : TimerKey} {now : UInt64} :
    k.encode.before (horizon now) = true ↔ k.due < now := by
  have front := BigEndian.compare_put64 k.due now (CheckPoint.keyOf k.queue k.operation) []
  rw [List.append_nil, BigEndian.compare_word64] at front
  rw [Bytes.before, encode_eq, horizon, front, UInt64.lt_iff_toNat_lt, Ordering.isLT_iff_eq_lt]
  rcases Nat.lt_trichotomy k.due.toNat now.toNat with lt | eq | gt
  · simp [Nat.compare_eq_lt.2 lt, lt]
  · rw [eq, Nat.compare_eq_eq.2 rfl]
    have longer : 0 < (CheckPoint.keyOf k.queue k.operation).length := by simp [CheckPoint.keyOf]
    cases rest : CheckPoint.keyOf k.queue k.operation with
    | nil =>
      rw [rest] at longer
      cases longer
    | cons d rest => simp
  · have : ¬ k.due.toNat < now.toNat := by omega
    simp [Nat.compare_eq_gt.2 gt, this]

end TimerKey

end QueueLedger
