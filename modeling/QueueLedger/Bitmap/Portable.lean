import QueueLedger.Bitmap
import QueueLedger.Bytes.LittleEndian
/-!
# The portable bitmap format

Bitmaps travel as bytes in a layout of containers. The indices are cut into containers by
their high half; a container holds low halves, either as a sorted list or, above 4096 of
them, as a set of 65536 bits.

Design points:

* Writing uses the layout without run containers: cookie, number of containers, a
  description of each (high half and size less one), the position of each body, the bodies.
* Reading also accepts run containers. It ignores the positions and whatever follows the
  last body, and refuses lists that do not ascend strictly, bit sets of another size than
  announced, and runs past the last low half.
-/

namespace QueueLedger.Bitmap

/-- The low halves of the indices that share one high half. -/
structure Container where
  /-- The high half. -/
  high : Nat
  /-- The low halves, in ascending order. -/
  lows : List Nat
  deriving Repr, DecidableEq, Inhabited

namespace Container

/-- The most low halves that are written as a list. -/
def listLimit : Nat := 4096

/-- The bytes of a bit set of all low halves. -/
def bitSetWidth : Nat := 8192

/-- Puts an index in front of containers of larger ones. -/
def push (i : UInt32) : List Container → List Container
  | [] => [⟨i.toNat / 65536, [i.toNat % 65536]⟩]
  | c :: rest =>
    if c.high = i.toNat / 65536 then ⟨c.high, i.toNat % 65536 :: c.lows⟩ :: rest
    else ⟨i.toNat / 65536, [i.toNat % 65536]⟩ :: c :: rest

/-- The containers of an ascending list of indices. -/
def ofIndices (is : List UInt32) : List Container := is.foldr push []

/-- The indices of a container. -/
def indices (c : Container) : List UInt32 :=
  c.lows.map fun low => UInt32.ofNat (c.high * 65536 + low)

/-- The byte of a bit set that stands for eight consecutive low halves. -/
def bitSetByte (has : Nat → Bool) (i : Nat) : UInt8 :=
  UInt8.ofNat (BitVec.ofBoolListLE ((List.range 8).map fun j => has (8 * i + j))).toNat

/-- A bit set of low halves. -/
def bitSet (has : Nat → Bool) : Bytes := (List.range bitSetWidth).map (bitSetByte has)

/-- The low halves in a bit set. -/
def ofBitSet (body : Bytes) : List Nat :=
  body.zipIdx.flatMap fun (b, i) =>
    ((List.range 8).filter fun j => b.toNat.testBit j).map (8 * i + ·)

/-- The body of a container. -/
def body (c : Container) : Bytes :=
  if c.lows.length ≤ listLimit then c.lows.flatMap (LittleEndian.encode 2)
  else
    let members := Std.ExtTreeSet.ofList c.lows
    bitSet fun low => members.contains low

/-- The length of the body in bytes. -/
def bodyWidth (c : Container) : Nat :=
  if c.lows.length ≤ listLimit then 2 * c.lows.length else bitSetWidth

/-- The description of a container. -/
def description (c : Container) : Bytes :=
  LittleEndian.encode 2 c.high ++ LittleEndian.encode 2 (c.lows.length - 1)

/-- The positions of the bodies, the first of which begins at `start`. -/
def positions (start : Nat) : List Container → List Nat
  | [] => []
  | c :: rest => start :: positions (start + c.bodyWidth) rest

end Container

/-- The first word of a bitmap without run containers. -/
def plainCookie : Nat := 12346

/-- The low half of the first word of a bitmap with run containers. -/
def runCookie : Nat := 12347

/-- The most containers of a bitmap. -/
def containerLimit : Nat := 65536

/-- The number of containers from which on a bitmap with runs lists the positions. -/
def positionsFrom : Nat := 4

/-- The bytes of a bitmap. -/
def encode (b : Bitmap) : Bytes :=
  let cs := Container.ofIndices b.toList
  LittleEndian.encode 4 plainCookie ++ LittleEndian.encode 4 cs.length ++
    cs.flatMap Container.description ++
    (Container.positions (8 + 8 * cs.length) cs).flatMap (LittleEndian.encode 4) ++
    cs.flatMap Container.body

/-! ### Reading -/

/-- Whether each number is smaller than the next. -/
def ascending : List Nat → Bool
  | a :: b :: rest => decide (a < b) && ascending (b :: rest)
  | _ => true

/-- What stands before the descriptions: the number of containers, the flags that mark run
containers, and whether positions follow the descriptions. -/
structure Header where
  /-- The number of containers. -/
  containers : Nat
  /-- A bit a container: whether it holds runs. -/
  runFlags : Bytes
  /-- Whether the positions of the bodies are listed. -/
  listsPositions : Bool

/-- Whether the container of a given number holds runs. -/
def Header.holdsRuns (h : Header) (i : Nat) : Bool :=
  match h.runFlags[i / 8]? with
  | some flags => flags.toNat.testBit (i % 8)
  | none => false

/-- Reads the header. -/
def readHeader : Reader Header := do
  let cookie ← LittleEndian.read 4
  if cookie = plainCookie then
    let n ← LittleEndian.read 4
    if n ≤ containerLimit then pure ⟨n, [], true⟩ else failure
  else if cookie % 65536 = runCookie then
    let n := cookie / 65536 + 1
    let flags ← Reader.take ((n + 7) / 8)
    pure ⟨n, flags, decide (positionsFrom ≤ n)⟩
  else failure

/-- Reads the description of a container: its high half and its size. -/
def readDescription : Reader (Nat × Nat) := do
  let high ← LittleEndian.read 2
  let size ← LittleEndian.read 2
  pure (high, size + 1)

/-- Reads one run and gives its low halves. -/
def readRun : Reader (List Nat) := do
  let start ← LittleEndian.read 2
  let extent ← LittleEndian.read 2
  if start + extent < 65536 then pure (List.range' start (extent + 1)) else failure

/-- Reads the low halves of a container. -/
def readLows (runs : Bool) (size : Nat) : Reader (List Nat) := do
  if runs then
    let n ← LittleEndian.read 2
    let lows ← Reader.times readRun n
    pure lows.flatten
  else if size ≤ Container.listLimit then
    Reader.accept (fun lows => if ascending lows then some lows else none)
      (Reader.times (LittleEndian.read 2) size)
  else
    Reader.accept (fun lows => if lows.length = size then some lows else none)
      (Container.ofBitSet <$> Reader.take Container.bitSetWidth)

/-- Reads the bodies of the described containers, the first of which has the number `i`. -/
def readBodies (h : Header) : Nat → List (Nat × Nat) → Reader (List Container)
  | _, [] => pure []
  | i, (high, size) :: rest => do
    let lows ← readLows (h.holdsRuns i) size
    let others ← readBodies h (i + 1) rest
    pure (⟨high, lows⟩ :: others)

/-- Reads the containers of a bitmap. -/
def readContainers : Reader (List Container) := do
  let h ← readHeader
  let descriptions ← Reader.times readDescription h.containers
  if h.listsPositions then
    let _ ← Reader.take (4 * h.containers)
  readBodies h 0 descriptions

/-- The bitmap that bytes denote, whatever follows its last body. -/
def decode? (b : Bytes) : Option Bitmap :=
  (readContainers b).map fun (cs, _) => Std.ExtTreeSet.ofList (cs.flatMap Container.indices)

end QueueLedger.Bitmap
