import QueueLedger.Bytes
/-!
# Big-endian numbers

Fixed-width numbers, most significant byte first. Among numbers that fit the width,
the order of the bytes is the order of the numbers, which is why every key of the
ledger's tables is made of them.

Design points:

* `encode` and `decode` work on `Nat` at any width; the machine words are thin
  instances of them.
* `split64` and its siblings take a word off the front of a record. They are total:
  a record's length is checked once, before its first field.
-/

namespace QueueLedger.BigEndian

/-- The low `w` base-256 digits of `n`, most significant first. -/
def encode : Nat → Nat → Bytes
  | 0, _ => []
  | w + 1, n => UInt8.ofNat (n / Bytes.capacity w) :: encode w n

/-- The number that a byte string denotes. -/
def decode (b : Bytes) : Nat := b.foldl (fun n digit => n * 256 + digit.toNat) 0

@[simp] theorem length_encode (w n : Nat) : (encode w n).length = w := by
  induction w with
  | zero => rfl
  | succ w ih => simp [encode, ih]

@[simp] theorem decode_nil : decode [] = 0 := rfl

theorem foldl_digits (b : Bytes) (n : Nat) :
    b.foldl (fun n digit => n * 256 + digit.toNat) n = n * Bytes.capacity b.length + decode b := by
  induction b generalizing n with
  | nil => simp [Bytes.capacity]
  | cons d b ih =>
    simp only [List.foldl_cons, decode, List.length_cons, Bytes.capacity]
    rw [ih, ih (0 * 256 + d.toNat)]
    rw [Nat.add_mul, Nat.zero_mul, Nat.zero_add, Nat.add_assoc, Nat.mul_assoc,
      Nat.mul_comm 256]

theorem decode_cons (d : UInt8) (b : Bytes) :
    decode (d :: b) = d.toNat * Bytes.capacity b.length + decode b := by
  simpa [decode] using foldl_digits b d.toNat

theorem decode_encode (w n : Nat) : decode (encode w n) = n % Bytes.capacity w := by
  induction w with
  | zero => simp [encode, Bytes.capacity, Nat.mod_one]
  | succ w ih =>
    have digit : (UInt8.ofNat (n / Bytes.capacity w)).toNat = n / Bytes.capacity w % 256 :=
      UInt8.toNat_ofNat'
    rw [encode, decode_cons, length_encode, ih, digit, Bytes.capacity, Nat.mod_mul,
      Nat.mul_comm, Nat.add_comm]

theorem decode_lt (b : Bytes) : decode b < Bytes.capacity b.length := by
  induction b with
  | nil => simp [Bytes.capacity]
  | cons d b ih =>
    rw [decode_cons, List.length_cons, Bytes.capacity]
    have hd := d.toNat_lt
    calc d.toNat * Bytes.capacity b.length + decode b
        < d.toNat * Bytes.capacity b.length + Bytes.capacity b.length := by omega
      _ = (d.toNat + 1) * Bytes.capacity b.length := by rw [Nat.add_mul, Nat.one_mul]
      _ ≤ 256 * Bytes.capacity b.length := Nat.mul_le_mul_right _ (by omega)
      _ = Bytes.capacity b.length * 256 := Nat.mul_comm _ _

/-- Eight bytes for a 64-bit word. -/
def put64 (n : UInt64) : Bytes := encode 8 n.toNat

/-- Four bytes for a 32-bit word. -/
def put32 (n : UInt32) : Bytes := encode 4 n.toNat

/-- The leading 64-bit word, and the bytes after it. -/
def split64 (b : Bytes) : UInt64 × Bytes := (UInt64.ofNat (decode (b.take 8)), b.drop 8)

/-- The leading 32-bit word, and the bytes after it. -/
def split32 (b : Bytes) : UInt32 × Bytes := (UInt32.ofNat (decode (b.take 4)), b.drop 4)

/-- The leading byte, and the bytes after it. -/
def split8 (b : Bytes) : UInt8 × Bytes := (UInt8.ofNat (decode (b.take 1)), b.drop 1)

@[simp] theorem length_put64 (n : UInt64) : (put64 n).length = 8 := length_encode 8 _

@[simp] theorem length_put32 (n : UInt32) : (put32 n).length = 4 := length_encode 4 _

@[simp] theorem split64_put64 (n : UInt64) (rest : Bytes) :
    split64 (put64 n ++ rest) = (n, rest) := by
  have hl : (put64 n).length = 8 := length_put64 n
  have ht : (put64 n ++ rest).take 8 = put64 n := by rw [← hl, List.take_left]
  have hd : (put64 n ++ rest).drop 8 = rest := by rw [← hl, List.drop_left]
  have hn : n.toNat % Bytes.capacity 8 = n.toNat := Nat.mod_eq_of_lt n.toNat_lt
  rw [split64, ht, hd, put64, decode_encode, hn, UInt64.ofNat_toNat]

@[simp] theorem split32_put32 (n : UInt32) (rest : Bytes) :
    split32 (put32 n ++ rest) = (n, rest) := by
  have hl : (put32 n).length = 4 := length_put32 n
  have ht : (put32 n ++ rest).take 4 = put32 n := by rw [← hl, List.take_left]
  have hd : (put32 n ++ rest).drop 4 = rest := by rw [← hl, List.drop_left]
  have hn : n.toNat % Bytes.capacity 4 = n.toNat := Nat.mod_eq_of_lt n.toNat_lt
  rw [split32, ht, hd, put32, decode_encode, hn, UInt32.ofNat_toNat]

@[simp] theorem split8_cons (d : UInt8) (rest : Bytes) : split8 (d :: rest) = (d, rest) := by
  simp [split8, decode]

end QueueLedger.BigEndian
