/-!
# Decimal numbers

Reading a number written in decimal digits.
-/

namespace QueueLedger.Text

/-- The number that digits denote, if there is at least one and nothing else. -/
def decimal? (cs : List Char) : Option Nat :=
  if cs ≠ [] ∧ cs.all Char.isDigit then some (cs.foldl (fun n d => n * 10 + (d.toNat - 48)) 0)
  else none

end QueueLedger.Text
