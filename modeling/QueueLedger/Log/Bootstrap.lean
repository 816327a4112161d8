import QueueLedger.Log.Appender
import QueueLedger.Log.Options
/-!
# Setting up logging

A program sets up its logging once. From then on every event that passes the filter is
written to all sinks: the standard output, a file with everything, and a file with errors
only. The filter can be replaced while the program runs; nothing else can.

Design points:

* `Program` is what logging sees of a running program: its environment, the clock, its files,
  what it printed, and what is installed. Every step is a function on it.
* Setting up happens inside a latch that runs its body once (`Once`). If the body fails, the
  latch is poisoned, and every later attempt fails with that.
* A file sink opens its file before the filter is read, so files exist even if the filter
  turns out to be malformed.
* A line is written when its event comes in, in the hour that the clock shows then.
-/

namespace QueueLedger.Log

/-- A latch that lets its body run once. -/
inductive Once
  /-- The body has not run. -/
  | fresh
  /-- The body has run. -/
  | done
  /-- The body has failed. -/
  | poisoned
  deriving Repr, DecidableEq, Inhabited

/-- Why setting up fails. -/
inductive SetupFault
  /-- An earlier attempt failed. -/
  | poisoned
  /-- The filter is malformed. -/
  | level
  /-- A log file in the directory cannot be opened. -/
  | appender (dir : String)
  deriving Repr, DecidableEq, Inhabited

/-- The wording of a failed set-up. -/
def SetupFault.message : SetupFault → String
  | poisoned => "Once instance has previously been poisoned"
  | level => "error parsing log level string"
  | appender dir => "initializing rolling file appender at " ++ dir ++ " failed"

/-- Where a sink writes. -/
inductive Destination
  /-- The standard output. -/
  | stdout
  /-- A series of files. -/
  | files (appender : Appender)
  deriving Repr, DecidableEq

/-- A destination and what it takes. -/
structure Sink where
  /-- Where lines go. -/
  destination : Destination
  /-- The levels that the sink knows. -/
  ceiling : Ceiling
  deriving Repr, DecidableEq

/-- What a successful set-up installs. -/
structure Pipeline where
  /-- The form of the lines. -/
  format : Format
  /-- Which events and spans pass. -/
  filter : Filter
  /-- Where lines go. -/
  sinks : List Sink
  deriving Repr, DecidableEq

/-- The environment variables that logging reads. -/
structure Environment where
  /-- The filter of a program whose options name none. -/
  logLevel : Option String
  /-- The log directory of a test program. -/
  testDir : Option String
  /-- The filter of a test program. -/
  testLevel : Option String
  deriving Repr, DecidableEq, Inhabited

/-- A running program, as far as logging sees it. -/
structure Program where
  /-- The environment. -/
  environment : Environment
  /-- The hour that the clock shows. -/
  hour : Hour
  /-- The files. -/
  files : Files
  /-- What was printed. -/
  printed : Array Line
  /-- The latch around the set-up. -/
  setup : Once
  /-- The latch around the set-up of a test program. -/
  testSetup : Once
  /-- What is installed. -/
  pipeline : Option Pipeline

namespace Program

/-- A program before any set-up. -/
def start (environment : Environment) (hour : Hour) (files : Files) : Program :=
  ⟨environment, hour, files, #[], .fresh, .fresh, none⟩

/-- The clock shows another hour. -/
def tick (hour : Hour) (p : Program) : Program := { p with hour := hour }

/-! ### Writing -/

/-- The line of an event at a sink. It shows the spans that pass the filter and that the sink
knows. -/
def line (pl : Pipeline) (s : Sink) (e : Event) : Line :=
  let spans := e.spans.filter fun sp => pl.filter.enables sp.callsite && s.ceiling.allows sp.level
  match pl.format with
  | .text => .text (Line.ofText e spans)
  | .json => .object (Line.ofObject e spans)

/-- Writes a line to a sink. Gives the sink afterwards. -/
def write (l : Line) (s : Sink) (p : Program) : Sink × Program :=
  match s.destination with
  | .stdout => (s, { p with printed := p.printed.push l })
  | .files a =>
    let (a, files) := a.write p.hour l p.files
    ({ s with destination := .files a }, { p with files := files })

/-- Writes an event to the sinks that know its level. Gives the sinks afterwards. -/
def writeAll (pl : Pipeline) (e : Event) : List Sink → Program → List Sink × Program
  | [], p => ([], p)
  | s :: sinks, p =>
    let (s, p) := if s.ceiling.allows e.level then p.write (line pl s e) s else (s, p)
    let (sinks, p) := writeAll pl e sinks p
    (s :: sinks, p)

/-- Logs an event: nothing happens before a set-up, or if the event does not pass. -/
def emit (e : Event) (p : Program) : Program :=
  match p.pipeline with
  | none => p
  | some pl =>
    if pl.filter.enables e.callsite then
      let (sinks, p) := writeAll pl e pl.sinks p
      { p with pipeline := some { pl with sinks := sinks } }
    else p

/-! ### Setting up -/

/-- The filter of a program whose options and environment name none. -/
def standardLevel : String := "info"

/-- The owner of the file with errors only. -/
def errorOwner (app : String) : String := app ++ "-err"

/-- The log files of an owner. -/
def series (owner : String) (o : Options) : Series := ⟨o.dir, owner, o.maxFiles.toNat⟩

/-- Opens the first file of a series. -/
def openLog (s : Series) (p : Program) : Except SetupFault Appender × Program :=
  match s.open? p.hour p.files with
  | some files => (.ok ⟨s, p.hour, p.hour⟩, { p with files := files })
  | none => (.error (.appender s.dir), { p with files := s.prune p.files })

/-- Opens the log files of the program, one for everything and one for errors, and gives their
sinks. -/
def openSinks (app : String) (o : Options) (p : Program) :
    Except SetupFault (List Sink) × Program :=
  if o.dir = "" then (.ok [], p)
  else
    match p.openLog (series app o) with
    | (.error e, p) => (.error e, p)
    | (.ok all, p) =>
      match p.openLog (series (errorOwner app) o) with
      | (.error e, p) => (.error e, p)
      | (.ok errors, p) => (.ok [⟨.files all, some .trace⟩, ⟨.files errors, some .error⟩], p)

/-- The text of the filter: from the options, else from the environment. -/
def levelText (o : Options) (p : Program) : String :=
  match o.level with
  | some l => l
  | none => p.environment.logLevel.getD standardLevel

/-- The body of the set-up: opens the sinks, reads the filter and installs both. Gives the
number of sinks. -/
def install (app : String) (o : Options) (p : Program) : Except SetupFault Nat × Program :=
  let printing := if o.stdout then [⟨.stdout, some .trace⟩] else []
  match p.openSinks app o with
  | (.error e, p) => (.error e, p)
  | (.ok writing, p) =>
    match Filter.parse? (levelText o p) with
    | none => (.error .level, p)
    | some filter =>
      let sinks := printing ++ writing
      (.ok sinks.length, { p with pipeline := some ⟨o.format, filter, sinks⟩ })

/-- Sets up logging. Only the first attempt has an effect; a later one gives no sinks. -/
def init (app : String) (o : Options) (p : Program) : Except SetupFault Nat × Program :=
  match p.setup with
  | .done => (.ok 0, p)
  | .poisoned => (.error .poisoned, p)
  | .fresh =>
    match p.install app o with
    | (.ok n, p) => (.ok n, { p with setup := .done })
    | (.error e, p) => (.error e, { p with setup := .poisoned })

/-- The log directory of a test program whose environment names none. -/
def standardTestDir : String := "/tmp/__unittest_logs"

/-- The filter of a test program whose environment names none. -/
def standardTestLevel : String := "debug"

/-- The event that a test program logs first. -/
def testGreeting (dir : String) : Event :=
  .plain .info "tidemq_common_telemetry::logging" ("logs dir = " ++ dir) [] []

/-- Sets up logging for a test program. Only the first attempt has an effect. -/
def initTest (p : Program) : Except SetupFault Unit × Program :=
  match p.testSetup with
  | .done => (.ok (), p)
  | .poisoned => (.error .poisoned, p)
  | .fresh =>
    let dir := p.environment.testDir.getD standardTestDir
    let level := p.environment.testLevel.getD standardTestLevel
    match p.init "unittest" { Options.standard with dir := dir, level := some level } with
    | (.ok _, p) => (.ok (), { p.emit (testGreeting dir) with testSetup := .done })
    | (.error e, p) => (.error e, { p with testSetup := .poisoned })

/-! ### Replacing the filter -/

/-- What came of an attempt to replace the filter. -/
inductive Reload
  /-- The text is no filter. -/
  | malformed
  /-- Nothing is installed. -/
  | notInstalled
  /-- The filter was replaced. -/
  | replaced
  deriving Repr, DecidableEq, Inhabited

/-- Replaces the filter of what is installed. -/
def refilter (filter : Filter) (p : Program) : Reload × Program :=
  match p.pipeline with
  | none => (.notInstalled, p)
  | some pl => (.replaced, { p with pipeline := some { pl with filter := filter } })

/-- Replaces the filter by the one that a text denotes. -/
def reload (targets : String) (p : Program) : Reload × Program :=
  match Filter.parse? targets with
  | none => (.malformed, p)
  | some filter => p.refilter filter

end Program

end QueueLedger.Log
