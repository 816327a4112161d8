import QueueLedger.Text.Unprintable
/-!
# Quoted text

The form in which log lines show a string field: between double quotes, with a backslash
before a quote or a backslash, short escapes for tab, line feed, carriage return and NUL,
and every unprintable character as its code point in braces.

Beside it stands `sanitize`, the milder rule for a log message: only the characters that
steer a terminal are replaced.
-/

namespace QueueLedger.Text

/-- The lowercase hexadecimal digits of a number, without leading zeros. -/
def hexDigits (n : Nat) : List Char := Nat.toDigits 16 n

/-- A code point in braces. -/
def codePoint (c : Char) : List Char :=
  ['\\', 'u', '\x7b'] ++ hexDigits c.toNat ++ ['\x7d']

/-- One character of a quoted string. -/
def escape (c : Char) : List Char :=
  if c = '"' then ['\\', '"']
  else if c = '\\' then ['\\', '\\']
  else if c = '\t' then ['\\', 't']
  else if c = '\n' then ['\\', 'n']
  else if c = '\r' then ['\\', 'r']
  else if c.toNat = 0 then ['\\', '0']
  else if isUnprintable c then codePoint c
  else [c]

/-- A string between double quotes. -/
def quote (s : String) : String :=
  String.ofList (['"'] ++ s.toList.flatMap escape ++ ['"'])

/-- One character of a log message: escape, bell, backspace, form feed and delete are
written as two hexadecimal digits, the second block of controls by code point. -/
def defuse (c : Char) : List Char :=
  let n := c.toNat
  if n = 27 then "\\x1b".toList
  else if n = 7 then "\\x07".toList
  else if n = 8 then "\\x08".toList
  else if n = 12 then "\\x0c".toList
  else if n = 127 then "\\x7f".toList
  else if 128 ≤ n ∧ n ≤ 159 then codePoint c
  else [c]

/-- A log message without characters that steer a terminal. -/
def sanitize (s : String) : String := String.ofList (s.toList.flatMap defuse)

end QueueLedger.Text
