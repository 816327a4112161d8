/-!
# Configuration

The options that all queues of a store share: the names of the three tables, and how far a
watermark may run ahead of its base before its bitmap is re-anchored.
-/

namespace QueueLedger

/-- The options of a ledger. -/
structure Config where
  /-- The table of check points. -/
  checkPoints : String
  /-- The table of timers. -/
  timers : String
  /-- The table of order locks. -/
  locks : String
  /-- The distance of a mark from its base at which the bitmap is re-anchored. -/
  rebaseThreshold : UInt64
  deriving Repr, DecidableEq

namespace Config

/-- The options that apply when nothing else is said. -/
def standard : Config := ⟨"check_point", "timer_tag", "fifo_index", 65536⟩

instance : Inhabited Config := ⟨standard⟩

/-- Whether the three tables have different names. -/
def distinct (c : Config) : Prop :=
  c.checkPoints ≠ c.timers ∧ c.checkPoints ≠ c.locks ∧ c.timers ≠ c.locks

instance (c : Config) : Decidable c.distinct := inferInstanceAs (Decidable (_ ∧ _ ∧ _))

end Config

end QueueLedger
