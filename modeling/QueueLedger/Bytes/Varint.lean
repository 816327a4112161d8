import QueueLedger.Bytes.LittleEndian
/-!
# Variable-width integers

Numbers up to 250 are one byte. Larger ones are a marker byte, 251, 252 or 253, and
then two, four or eight little-endian bytes.

Design points:

* `encode` always takes the narrowest form; `read` also accepts a wider one than needed.
* A reader has a `limit`, the width in bytes of the integer it fills. A marker for a
  wider number is refused even if the number would fit, as are the markers 254 and 255.
-/

namespace QueueLedger.Varint

/-- The largest number that is its own byte. -/
def single : Nat := 250

/-- The narrowest form of `n`. -/
def encode (n : Nat) : Bytes :=
  if n ≤ single then [UInt8.ofNat n]
  else if n < UInt16.size then 251 :: LittleEndian.encode 2 n
  else if n < UInt32.size then 252 :: LittleEndian.encode 4 n
  else 253 :: LittleEndian.encode 8 n

/-- The width in bytes that a marker announces. -/
def width? (marker : UInt8) : Option Nat :=
  if marker = 251 then some 2
  else if marker = 252 then some 4
  else if marker = 253 then some 8
  else none

/-- Reads a number into an integer of `limit` bytes. -/
def read (limit : Nat) : Reader Nat
  | [] => none
  | first :: rest =>
    if first.toNat ≤ single then some (first.toNat, rest)
    else
      match width? first with
      | none => none
      | some w => if w ≤ limit then LittleEndian.read w rest else none

/-- Reads a 64-bit word. -/
def read64 : Reader UInt64 := fun b =>
  match read 8 b with
  | some (n, rest) => some (UInt64.ofNat n, rest)
  | none => none

/-- Reads a 32-bit word. -/
def read32 : Reader UInt32 := fun b =>
  match read 4 b with
  | some (n, rest) => some (UInt32.ofNat n, rest)
  | none => none

/-- The form of a 64-bit word. -/
def put64 (n : UInt64) : Bytes := encode n.toNat

/-- The form of a 32-bit word. -/
def put32 (n : UInt32) : Bytes := encode n.toNat

/-- A number that fits eight bytes reads back, whatever follows it. -/
theorem read_encode_8 {n : Nat} (h : n < UInt64.size) (rest : Bytes) :
    read 8 (encode n ++ rest) = some (n, rest) := by
  unfold encode
  split
  next small =>
    have digit : (UInt8.ofNat n).toNat = n := by
      rw [UInt8.toNat_ofNat', Nat.mod_eq_of_lt]
      exact Nat.lt_of_le_of_lt small (by decide)
    simp [read, digit, small]
  next big =>
    split
    next h16 => exact LittleEndian.read_encode (w := 2) h16 rest
    next =>
      split
      next h32 => exact LittleEndian.read_encode (w := 4) h32 rest
      next => exact LittleEndian.read_encode (w := 8) h rest

/-- A number that fits four bytes reads back as a 32-bit integer. -/
theorem read_encode_4 {n : Nat} (h : n < UInt32.size) (rest : Bytes) :
    read 4 (encode n ++ rest) = some (n, rest) := by
  unfold encode
  split
  next small =>
    have digit : (UInt8.ofNat n).toNat = n := by
      rw [UInt8.toNat_ofNat', Nat.mod_eq_of_lt]
      exact Nat.lt_of_le_of_lt small (by decide)
    simp [read, digit, small]
  next big =>
    split
    next h16 => exact LittleEndian.read_encode (w := 2) h16 rest
    next => exact LittleEndian.read_encode (w := 4) h rest

@[simp] theorem read64_put64 (n : UInt64) (rest : Bytes) :
    read64 (put64 n ++ rest) = some (n, rest) := by
  simp only [read64, put64, read_encode_8 n.toNat_lt, UInt64.ofNat_toNat]

@[simp] theorem read32_put32 (n : UInt32) (rest : Bytes) :
    read32 (put32 n ++ rest) = some (n, rest) := by
  simp only [read32, put32, read_encode_4 n.toNat_lt, UInt32.ofNat_toNat]

end QueueLedger.Varint
