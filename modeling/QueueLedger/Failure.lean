import QueueLedger.ErrorChain
import QueueLedger.QueueId
import QueueLedger.Text.Quoted
/-!
# Failures of the ledger

What can go wrong in a call, kept as causes. The wording of each cause stands in one place,
`Failure.message`, and everything else that callers see is derived from it.

Design points:

* A failure belongs to one of eight kinds, and each kind has a fixed status.
* A failure of the store, a bitmap or the snapshot format has the underlying error as its
  source. It is a chain of one layer (`Failure.chain`), so its output message is the
  chain's.
* `outOfRange` is raised where an offset computation would leave the 64-bit range. The call
  stops there.
-/

namespace QueueLedger

/-- Why an argument was refused. -/
inductive Refusal
  /-- An operation for queue `got` was given to the ledger of queue `own`. -/
  | wrongQueue (got own : QueueId)
  /-- An operation id lies before the last applied one. -/
  | behindCursor (operation cursor : UInt64)
  /-- A pop of no messages. -/
  | emptyPop
  /-- A pop of more messages than there are offsets up to its last one. -/
  | popTooLong (count : UInt32) (offset : UInt64)
  /-- An ordered pop of offsets that another delivery holds. -/
  | locked (offset owner : UInt64)
  /-- A snapshot holds the check point of another queue. -/
  | foreignCheckPoint (operation : UInt64) (queue : QueueId)
  /-- A number that names no pop type. -/
  | unknownPopType (tag : UInt8)
  /-- A reason given by the embedding program. -/
  | stated (reason : String)
  deriving Repr, DecidableEq, Inhabited

/-- The wording of a refusal. -/
def Refusal.text : Refusal → String
  | wrongQueue got own =>
    "operation for queue " ++ got.text ++ " replayed into queue " ++ own.text
  | behindCursor operation cursor =>
    "operation id " ++ toString operation ++ " is behind replay cursor " ++ toString cursor
  | emptyPop => "pop count must be at least 1"
  | popTooLong count offset =>
    "pop count " ++ toString count ++ " exceeds the offsets ending at " ++ toString offset
  | locked offset owner =>
    "ordered offsets ending at " ++ toString offset ++ " are locked by operation " ++
      toString owner
  | foreignCheckPoint operation queue =>
    "snapshot check point " ++ toString operation ++ " belongs to queue " ++ queue.text
  | unknownPopType tag => "unknown pop type tag " ++ toString tag
  | stated reason => reason

/-- Why bytes or text do not denote a record. -/
inductive DecodeFault
  /-- The record has another length. -/
  | length (expected got : Nat)
  /-- The record has a format version other than the known one. -/
  | version (found : UInt8)
  /-- The record has a pop type that does not exist. -/
  | popType (tag : UInt8)
  /-- The text is not of the right number of hexadecimal digits. -/
  | digitCount (expected : Nat)
  /-- A character of the text is not a digit. -/
  | digit
  /-- A reason given by the embedding program. -/
  | stated (reason : String)
  deriving Repr, DecidableEq, Inhabited

/-- The wording of a decoding fault. -/
def DecodeFault.text : DecodeFault → String
  | length expected got =>
    "expected " ++ toString expected ++ " bytes, got " ++ toString got
  | version found => "unsupported format version " ++ toString found
  | popType tag => "unknown pop type tag " ++ toString tag
  | digitCount expected => "expected " ++ toString expected ++ " hex digits"
  | digit => "invalid digit found in string"
  | stated reason => reason

/-- Failures of the store itself. -/
inductive StoreFault
  /-- The engine failed. -/
  | storage (message : String)
  /-- No view is held under the version. -/
  | unknownSnapshot (version : UInt64)
  deriving Repr, DecidableEq, Inhabited

/-- The wording of a store failure. -/
def StoreFault.text : StoreFault → String
  | storage message => "Storage engine failure: " ++ message
  | unknownSnapshot version => "Unknown snapshot version " ++ toString version

/-- Failures of the snapshot format. -/
inductive WireFault
  /-- The bytes do not follow the format. -/
  | malformed
  /-- A reason given by the embedding program. -/
  | other (text : String)
  deriving Repr, DecidableEq, Inhabited

/-- The wording of a format failure. -/
def WireFault.text : WireFault → String
  | malformed => "malformed snapshot bytes"
  | other text => "OtherString(" ++ Text.quote text ++ ")"

/-- The failure of a call. -/
inductive Failure
  /-- An argument was refused. -/
  | illegalArgument (why : Refusal)
  /-- No check point is in flight under the operation id. -/
  | checkPointNotFound (queue : QueueId) (operation : UInt64)
  /-- An acknowledged offset lies too far above the watermark to be recorded. -/
  | ackWindowOverflow (offset ackOffset : UInt64)
  /-- The store failed. -/
  | store (fault : StoreFault)
  /-- Bytes or text do not denote a record of the kind `what`. -/
  | decode (what : String) (fault : DecodeFault)
  /-- Bytes do not denote a bitmap. -/
  | bitmap (cause : String)
  /-- A snapshot could not be written. -/
  | snapshotEncode (fault : WireFault)
  /-- Bytes do not denote a snapshot. -/
  | snapshotDecode (fault : WireFault)
  /-- An offset computation would leave the 64-bit range. -/
  | outOfRange
  deriving Repr, DecidableEq, Inhabited

namespace Failure

/-- What the failure says of itself. -/
def message : Failure → String
  | illegalArgument why => "Illegal argument: " ++ why.text
  | checkPointNotFound queue operation =>
    "Check point not found: topic_id=" ++ toString queue.topic ++ ", queue_id=" ++
      toString queue.queue ++ ", operation_id=" ++ toString operation
  | ackWindowOverflow offset ackOffset =>
    "Ack offset " ++ toString offset ++ " is out of the bitmap window at ack offset " ++
      toString ackOffset
  | store _ => "KV store failure"
  | decode what fault => "Failed to decode " ++ what ++ ": " ++ fault.text
  | bitmap _ => "Failed to (de)serialize ack bitmap"
  | snapshotEncode _ => "Failed to encode operation snapshot"
  | snapshotDecode _ => "Failed to decode operation snapshot"
  | outOfRange => "Offset arithmetic out of range"

/-- The class of the failure. -/
def status : Failure → Status
  | illegalArgument _ | ackWindowOverflow _ _ => .illegalArgument
  | checkPointNotFound _ _ => .notFound
  | store _ => .storageIo
  | decode _ _ | bitmap _ | snapshotEncode _ | snapshotDecode _ => .serialization
  | outOfRange => .internal

/-- The texts of the errors below the failure. -/
def sources : Failure → List String
  | store fault => [fault.text]
  | bitmap cause => [cause]
  | snapshotEncode fault | snapshotDecode fault => [fault.text]
  | _ => []

/-- The failure as an error of one layer. -/
def chain (f : Failure) : ErrorChain := .single (.bare f.message f.status f.sources)

/-- The message for the outside. -/
def output (f : Failure) : String := f.chain.output

/-- The end of the failure's source chain. -/
def rootCause (f : Failure) : Option String := f.chain.rootCause

/-- Whether the addressed check point does not exist. -/
def isNotFound (f : Failure) : Bool := f.status == .notFound

/-- The stack of the failure, which names the place where it arose. A store failure adds
the line of its source. -/
def stack (f : Failure) (place : String) : List String :=
  let own := "0: " ++ f.message ++ ", at " ++ place
  match f with
  | store fault => [own, "1: " ++ fault.text]
  | _ => [own]

end Failure

end QueueLedger
