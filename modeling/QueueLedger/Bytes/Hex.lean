import QueueLedger.Bytes
/-!
# Hexadecimal text

Two digits a byte, written in lowercase.

Design points:

* `encode` is the printed form. `decode?` reads it back in either case and refuses
  everything else.
* `pair?` reads the number of a pair of characters by the laxer rule of a signed-looking
  integer: one leading plus sign is allowed before the last digit, so `+f` is 15.
  Receipts are read by this rule.
-/

namespace QueueLedger.Hex

/-- The lowercase digit of a number below 16. -/
def digit (n : Nat) : Char :=
  if n < 10 then Char.ofNat (48 + n) else Char.ofNat (87 + n)

/-- The number of a digit in either case. -/
def digit? (c : Char) : Option Nat :=
  let n := c.toNat
  if 48 ≤ n ∧ n ≤ 57 then some (n - 48)
  else if 97 ≤ n ∧ n ≤ 102 then some (n - 87)
  else if 65 ≤ n ∧ n ≤ 70 then some (n - 55)
  else none

/-- The digits of a byte string. -/
def chars (b : Bytes) : List Char :=
  b.flatMap fun d => [digit (d.toNat / 16), digit (d.toNat % 16)]

/-- The digits of a byte string, as text. -/
def encode (b : Bytes) : String := String.ofList (chars b)

/-- The byte of two digits. -/
def byte? (hi lo : Char) : Option UInt8 :=
  match digit? hi, digit? lo with
  | some h, some l => some (UInt8.ofNat (16 * h + l))
  | _, _ => none

/-- The byte of a pair of characters: two digits, or a plus sign and one digit. -/
def pair? (hi lo : Char) : Option UInt8 :=
  if hi = '+' then (digit? lo).map UInt8.ofNat else byte? hi lo

/-- Reads characters two at a time; an odd one at the end is refused. -/
def readPairs (pair : Char → Char → Option UInt8) : List Char → Option Bytes
  | [] => some []
  | [_] => none
  | hi :: lo :: rest =>
    match pair hi lo with
    | none => none
    | some d => (readPairs pair rest).map (d :: ·)

/-- The bytes of a text of digits. -/
def decode? (s : String) : Option Bytes := readPairs byte? s.toList

theorem digit?_digit {n : Nat} (h : n < 16) : digit? (digit n) = some n := by
  have all : ∀ n : Fin 16, digit? (digit n.val) = some n.val := by decide
  exact all ⟨n, h⟩

theorem byte?_digits (d : UInt8) :
    byte? (digit (d.toNat / 16)) (digit (d.toNat % 16)) = some d := by
  have hd := d.toNat_lt
  rw [byte?, digit?_digit (by omega), digit?_digit (by omega)]
  have : 16 * (d.toNat / 16) + d.toNat % 16 = d.toNat := Nat.div_add_mod _ _
  simp [this]

/-- What is written reads back by every rule that reads the two digits of a byte as the byte. -/
theorem readPairs_chars_of {pair : Char → Char → Option UInt8}
    (reads : ∀ d : UInt8, pair (digit (d.toNat / 16)) (digit (d.toNat % 16)) = some d) (b : Bytes) :
    readPairs pair (chars b) = some b := by
  induction b with
  | nil => rfl
  | cons d b ih =>
    have step : chars (d :: b) = digit (d.toNat / 16) :: digit (d.toNat % 16) :: chars b := rfl
    rw [step, readPairs, reads, ih]; rfl

/-- What is written reads back, digit for digit. -/
theorem readPairs_chars (b : Bytes) : readPairs byte? (chars b) = some b :=
  readPairs_chars_of byte?_digits b

@[simp] theorem decode?_encode (b : Bytes) : decode? (encode b) = some b := by
  simp [decode?, encode, readPairs_chars]

@[simp] theorem length_chars (b : Bytes) : (chars b).length = 2 * b.length := by
  induction b with
  | nil => rfl
  | cons d b ih =>
    have step : chars (d :: b) = digit (d.toNat / 16) :: digit (d.toNat % 16) :: chars b := rfl
    rw [step]; simp [ih]; omega

end QueueLedger.Hex
