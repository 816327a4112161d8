/-!
# Status codes

Every error of the library carries one of six codes. The code says who has to act: the
caller may try again as is (`retryable`), or the component must leave service (`fatal`).
-/

namespace QueueLedger

/-- The class of an error. -/
inductive Status
  /-- The caller handed over something the receiver cannot interpret. -/
  | illegalArgument
  /-- The addressed record does not exist. -/
  | notFound
  /-- The storage engine failed. -/
  | storageIo
  /-- Stored bytes could not be decoded. -/
  | serialization
  /-- A fault of the component itself. -/
  | internal
  /-- Nothing is known about the class. -/
  | unknown
  deriving Repr, DecidableEq, Inhabited

namespace Status

/-- The written form of a code. -/
def text : Status → String
  | illegalArgument => "illegal_argument"
  | notFound => "not_found"
  | storageIo => "storage_io"
  | serialization => "serialization"
  | internal => "internal"
  | unknown => "unknown"

/-- Every code. -/
def all : List Status :=
  [illegalArgument, notFound, storageIo, serialization, internal, unknown]

/-- The code with a given written form. -/
def ofText? (s : String) : Option Status := all.find? fun c => c.text == s

/-- Whether the caller may submit the failed request again as it is. -/
def retryable : Status → Bool
  | storageIo => true
  | _ => false

/-- Whether the failure must take the owning component out of service. -/
def fatal : Status → Bool
  | illegalArgument | serialization | internal => true
  | _ => false

/-- Whether a message for the outside names nothing but the code. -/
def concealed : Status → Bool
  | unknown | internal => true
  | _ => false

theorem concealed_iff {c : Status} : c.concealed = true ↔ c = unknown ∨ c = internal := by
  cases c <;> decide

end Status

end QueueLedger
