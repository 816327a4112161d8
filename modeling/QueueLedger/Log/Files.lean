import QueueLedger.Log.Event
import QueueLedger.Log.Hour
/-!
# Log files

A small tree of directories and files, as far as logging touches it: directories are made,
files are opened for appending, old files are removed.

Design points:

* Entries are kept in the order in which they were made, so "oldest" means "first in the
  list". No path has two entries.
* A path is the list of its parts below the root of the tree. The root always exists.
* What a text is written to is a file, and only files are removed. So directories stay.
-/

namespace QueueLedger.Log

/-- The parts of a path, from the root on. -/
abbrev FilePath := List String

/-- The parts of a written path. Empty parts and single dots name nothing. -/
def FilePath.ofText (s : String) : FilePath :=
  (Text.pieces '/' s).filter fun part => part ≠ "" && part ≠ "."

/-- What is found at a path. -/
inductive Node
  /-- A directory. -/
  | dir
  /-- A file with its lines. -/
  | file (lines : Array Line)
  deriving Inhabited

/-- Adds a line to a file. -/
def Node.push (l : Line) : Node → Node
  | file lines => file (lines.push l)
  | dir => dir

/-- A tree of directories and files, oldest entry first. -/
structure Files where
  /-- What is at which path. -/
  entries : List (FilePath × Node)
  /-- Each path has one entry. -/
  distinct : (entries.map Prod.fst).Nodup

namespace Files

/-- The tree with nothing but its root. -/
def empty : Files := ⟨[], .nil⟩

instance : Inhabited Files := ⟨empty⟩

/-- What is found at a path. -/
def node? (fs : Files) (p : FilePath) : Option Node :=
  if p = [] then some .dir else fs.entries.lookup p

/-- Makes a new entry, unless there is one at the path. -/
def add (p : FilePath) (n : Node) (fs : Files) : Files :=
  if new : p ∉ fs.entries.map Prod.fst then
    { entries := fs.entries ++ [(p, n)]
      distinct := by
        rw [List.map_append, List.nodup_append]
        refine ⟨fs.distinct, by simp, fun q hq r hr => ?_⟩
        obtain rfl : r = p := by simpa using hr
        rintro rfl
        exact new hq }
  else fs

/-- Whether there is a directory at a path. -/
def isDir (fs : Files) (p : FilePath) : Bool :=
  match fs.node? p with
  | some .dir => true
  | _ => false

/-- Makes the directories of a path that are missing, from `done` downward. Fails at a file. -/
def makeDirsFrom (done : FilePath) : FilePath → Files → Option Files
  | [], fs => some fs
  | part :: rest, fs =>
    let here := done ++ [part]
    match fs.node? here with
    | some .dir => makeDirsFrom here rest fs
    | some (.file _) => none
    | none => makeDirsFrom here rest (fs.add here .dir)

/-- Makes every directory of a path that is missing. Fails if a part of it is a file. -/
def makeDirs (p : FilePath) (fs : Files) : Option Files := makeDirsFrom [] p fs

/-- Opens a file for appending, and makes it if it is missing. Its directory must exist. -/
def open? (p : FilePath) (fs : Files) : Option Files :=
  if isDir fs p.dropLast then
    match fs.node? p with
    | some .dir => none
    | some (.file _) => some fs
    | none => some (fs.add p (.file #[]))
  else none

/-- Opens a file for appending, and makes the directories above it if need be. -/
def openIn (p : FilePath) (fs : Files) : Option Files :=
  match open? p fs with
  | some fs' => some fs'
  | none => (makeDirs p.dropLast fs).bind (open? p)

/-- Appends a line to the file at a path. -/
def append (p : FilePath) (l : Line) (fs : Files) : Files where
  entries := fs.entries.map fun e => (e.1, if e.1 = p then e.2.push l else e.2)
  distinct := by
    rw [List.map_map]
    exact fs.distinct

/-- Whether a file name belongs to an owner: it begins with the owner's name, or is a bare
hour for the owner without a name. -/
def owned (owner name : String) : Bool :=
  if owner = "" then isHour name else owner.toList.isPrefixOf name.toList

/-- The paths of an owner's files in a directory, oldest first. -/
def ownedFiles (dir : FilePath) (owner : String) (fs : Files) : List FilePath :=
  fs.entries.filterMap fun (p, n) =>
    match n with
    | .dir => none
    | .file _ =>
      if p.dropLast = dir ∧ p.getLast?.any (owned owner) then some p else none

/-- Keeps the entries of some paths. -/
def restrict (keep : FilePath → Bool) (fs : Files) : Files where
  entries := fs.entries.filter fun e => keep e.1
  distinct := (List.filter_sublist.map Prod.fst).nodup fs.distinct

/-- Removes the oldest files of an owner, so that with one more there are no more than
`limit`. A limit of zero keeps all. -/
def prune (dir : FilePath) (owner : String) (limit : Nat) (fs : Files) : Files :=
  let found := ownedFiles dir owner fs
  if limit = 0 ∨ found.length < limit then fs
  else
    let old := found.take (found.length - (limit - 1))
    fs.restrict fun p => !old.contains p

end Files

end QueueLedger.Log
