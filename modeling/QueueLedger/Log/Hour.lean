import QueueLedger.Text.Decimal
import QueueLedger.Text.Pieces
/-!
# Hours

Log files are named after the hour in which they were opened.

Design points:

* An hour is kept in its written form, a date with the hour of the day. All its parts have fixed
  widths and the largest one comes first, so written forms are ordered as the hours are.
* Whether a text is an hour is a test (`isHour`) that `Hour` carries with it, so that a file name
  made of one is known to have the form.
-/

namespace QueueLedger.Log

/-- The number of days of a month. -/
def daysIn (year month : Nat) : Nat :=
  if month = 2 then
    if year % 4 = 0 ∧ (year % 100 ≠ 0 ∨ year % 400 = 0) then 29 else 28
  else if month = 4 ∨ month = 6 ∨ month = 9 ∨ month = 11 then 30
  else 31

/-- Whether a text is a date with its hour, as in `2020-01-31-23`. -/
def isHour (text : String) : Bool :=
  match Text.pieces '-' text with
  | [year, month, day, hour] =>
    if year.length = 4 ∧ month.length = 2 ∧ day.length = 2 ∧ hour.length = 2 then
      match Text.decimal? year.toList, Text.decimal? month.toList, Text.decimal? day.toList,
          Text.decimal? hour.toList with
      | some y, some m, some d, some h =>
        decide (1 ≤ m ∧ m ≤ 12 ∧ 1 ≤ d ∧ d ≤ daysIn y m ∧ h < 24)
      | _, _, _, _ => false
    else false
  | _ => false

/-- An hour of the clock. -/
structure Hour where
  /-- Its written form. -/
  text : String
  /-- The form is that of an hour. -/
  dated : isHour text = true
  deriving Repr, DecidableEq

namespace Hour

/-- Earlier hours come first. -/
instance : LT Hour := ⟨fun a b => a.text < b.text⟩

instance : DecidableLT Hour := fun a b => inferInstanceAs (Decidable (a.text < b.text))

@[ext] theorem ext {a b : Hour} (text : a.text = b.text) : a = b := by
  cases a
  cases b
  cases text
  rfl

end Hour

end QueueLedger.Log
