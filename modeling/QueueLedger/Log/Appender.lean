import QueueLedger.Log.Files
/-!
# Log files that change with the hour

A program that runs for long writes one log file an hour. This module says which file a line goes
to, and which old files go away for it.

Design points:

* The files of one owner in one directory are a `Series`: they differ in the hour alone.
* An `Appender` looks at the clock only when it gets a line. It never goes back to an earlier hour.
* Before a file is opened, old ones make room for it. If it cannot be opened, the appender goes on
  with the one in use, and tries again in a later hour.
-/

namespace QueueLedger.Log

/-- The log files of an owner, one an hour. -/
structure Series where
  /-- The directory, as it is written. -/
  dir : String
  /-- What the names of the files begin with. -/
  owner : String
  /-- How many files may be there, the one in use included. Zero stands for any number. -/
  limit : Nat
  deriving Repr, DecidableEq, Inhabited

namespace Series

/-- The parts of the directory. -/
def dirPath (s : Series) : FilePath := .ofText s.dir

/-- The name of the file of an hour. -/
def fileName (s : Series) (h : Hour) : String :=
  if s.owner = "" then h.text else s.owner ++ "." ++ h.text

/-- The path of the file of an hour. -/
def path (s : Series) (h : Hour) : FilePath := s.dirPath ++ .ofText (s.fileName h)

/-- Removes old files, so that there is room for one more. -/
def prune (s : Series) (fs : Files) : Files := fs.prune s.dirPath s.owner s.limit

/-- Opens the file of an hour, after the oldest ones have made room for it. -/
def open? (s : Series) (h : Hour) (fs : Files) : Option Files := (s.prune fs).openIn (s.path h)

end Series

/-- What writes a series of log files. -/
structure Appender where
  /-- The files. -/
  series : Series
  /-- The last hour in which it opened a file, or tried to. -/
  reached : Hour
  /-- The hour of the file in use. -/
  opened : Hour
  deriving Repr, DecidableEq

namespace Appender

/-- Goes on to the file of a later hour. -/
def roll (now : Hour) (a : Appender) (fs : Files) : Appender × Files :=
  if a.reached < now then
    match a.series.open? now fs with
    | some fs => ({ a with reached := now, opened := now }, fs)
    | none => ({ a with reached := now }, a.series.prune fs)
  else (a, fs)

/-- Writes a line to the file in use. -/
def write (now : Hour) (l : Line) (a : Appender) (fs : Files) : Appender × Files :=
  let (a, fs) := a.roll now fs
  (a, fs.append (a.series.path a.opened) l)

end Appender

end QueueLedger.Log
