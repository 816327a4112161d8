import QueueLedger.Bytes
/-!
# Little-endian numbers

Fixed-width numbers, least significant byte first, as bitmap bodies and variable-width
integers use them. Writing is a plain function, reading a `Reader` that refuses input
shorter than the width.
-/

namespace QueueLedger.LittleEndian

/-- The low `w` base-256 digits of `n`, least significant first. -/
def encode : Nat → Nat → Bytes
  | 0, _ => []
  | w + 1, n => UInt8.ofNat n :: encode w (n / 256)

/-- The number that a byte string denotes. -/
def decode : Bytes → Nat
  | [] => 0
  | d :: rest => d.toNat + 256 * decode rest

/-- Reads a number of `w` bytes. -/
def read (w : Nat) : Reader Nat := fun b =>
  match Reader.take w b with
  | some (digits, rest) => some (decode digits, rest)
  | none => none

@[simp] theorem length_encode (w n : Nat) : (encode w n).length = w := by
  induction w generalizing n with
  | zero => rfl
  | succ w ih => simp [encode, ih]

theorem decode_encode (w n : Nat) : decode (encode w n) = n % Bytes.capacity w := by
  induction w generalizing n with
  | zero => simp [encode, decode, Bytes.capacity, Nat.mod_one]
  | succ w ih =>
    have digit : (UInt8.ofNat n).toNat = n % 256 := UInt8.toNat_ofNat'
    rw [encode, decode, ih, digit, Bytes.capacity, Nat.mul_comm (Bytes.capacity w), Nat.mod_mul]

/-- A number that fits reads back, whatever follows it. -/
theorem read_encode {w n : Nat} (h : n < Bytes.capacity w) (rest : Bytes) :
    read w (encode w n ++ rest) = some (n, rest) := by
  simp only [read, Reader.take_of_length (length_encode w n), decode_encode, Nat.mod_eq_of_lt h]

end QueueLedger.LittleEndian
