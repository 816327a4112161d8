import QueueLedger.Proofs.LogRotation
/-!
# Which sink gets which event

After a program has set up its logging, events come in, the clock goes on, the filter is replaced
and further attempts to set up are made, in any order. The files with everything get the events that
pass the filter in force, in order, the files with errors those of them that are errors, and the
standard output the same as the first files or nothing. Later attempts to set up are without effect.

## Proof shape

`passing` lists what passes, each event with the filter in force and the hour. What is installed
keeps its form and its two appenders, and an action is one step of these (`Installed.act`): an event
that passes is a delivery to the archive of the program (`writeAll_sinksOf`), and no other action
touches a file. So a run of the program is a run of its archive (`Installed.run`), of which
`Archive.Sound.run` says what the files hold then.
-/

namespace QueueLedger.Log

/-! ### What a line says -/

/-- A character that does not steer a terminal. -/
def Inert (c : Char) : Prop := c.toNat ∉ [7, 8, 12, 27] ∧ (c.toNat < 127 ∨ 159 < c.toNat)

theorem defuse_of_inert {c : Char} (inert : Inert c) : Text.defuse c = [c] := by
  obtain ⟨plain, range⟩ := inert
  simp only [List.mem_cons, List.not_mem_nil, or_false, not_or] at plain
  unfold Text.defuse
  dsimp only
  rw [if_neg plain.2.2.2, if_neg plain.1, if_neg plain.2.1, if_neg plain.2.2.1,
    if_neg (by omega), if_neg (by omega)]

/-- A message of such characters is written as it is. -/
theorem sanitize_of_inert {s : String} (inert : ∀ c ∈ s.toList, Inert c) :
    Text.sanitize s = s := by
  have each (cs : List Char) (inert : ∀ c ∈ cs, Inert c) : cs.flatMap Text.defuse = cs := by
    induction cs with
    | nil => rfl
    | cons c cs ih =>
      rw [List.flatMap_cons, defuse_of_inert (inert c (List.mem_cons_self ..)),
        ih fun d mem => inert d (List.mem_cons_of_mem c mem), List.singleton_append]
  rw [Text.sanitize, each s.toList inert, String.ofList_toList]

/-- A line in a format is about an event: it says its level, its target and its message, in this
order in a text, and by name in an object. A text says nothing else about an event without spans and
fields, and the message stands there as it is unless it would steer a terminal. -/
def Line.Tells (format : Format) (e : Event) : Line → Prop
  | .text s => format = .text ∧ ∃ around message fields : String,
      s = e.level.padded ++ " " ++ around ++ e.target ++ ": " ++ message ++ fields ∧
        (e.spans = [] → around = "") ∧ (e.fields = [] → fields = "") ∧
        message = Text.sanitize e.message ∧
        ((∀ c ∈ e.message.toList, Inert c) → message = e.message)
  | .object j => format = .json ∧ ∃ members fields : List (String × Json),
      j = .obj members ∧ List.lookup "level" members = some (.str e.level.label) ∧
        List.lookup "target" members = some (.str e.target) ∧
        List.lookup "fields" members = some (.obj fields) ∧
        List.lookup "message" fields = some (.str e.message)

/-- The message of a text line stands before the fields, if there are any. -/
theorem Line.ofText_eq (e : Event) (ss : List Span) : ∃ fields : String,
    Line.ofText e ss = e.level.padded ++ " " ++ Line.spans ss ++ e.target ++ ": " ++
      Text.sanitize e.message ++ fields ∧ (e.fields = [] → fields = "") := by
  let shown := (e.fields.filter fun x => Line.inText x.1).map fun x => Line.field x.1 x.2
  have line : Line.ofText e ss = e.level.padded ++ " " ++ Line.spans ss ++ e.target ++ ": " ++
      " ".intercalate (Text.sanitize e.message :: shown) := rfl
  cases eq : shown with
  | nil => exact ⟨"", by rw [line, eq, String.intercalate_singleton, String.append_empty],
      fun _ => rfl⟩
  | cons t ts =>
    refine ⟨" " ++ " ".intercalate (t :: ts), ?_, fun without => ?_⟩
    · rw [line, eq, String.intercalate_cons_cons]
      simp only [String.append_assoc]
    · simp [shown, without] at eq

namespace Program

/-- An event that passed the filter in force, in the hour that the clock showed. -/
structure Passed where
  /-- The filter. -/
  filter : Filter
  /-- The hour. -/
  hour : Hour
  /-- The event. -/
  event : Event
  deriving DecidableEq

/-- The line of an event that passed, at a sink that knows the levels up to `top`. -/
def lineOf (format : Format) (top : Level) (x : Passed) : Line :=
  line ⟨format, x.filter, []⟩ ⟨.stdout, some top⟩ x.event

/-- Each line says what its event is. -/
theorem lineOf_tells (format : Format) (top : Level) (x : Passed) :
    (lineOf format top x).Tells format x.event := by
  cases format with
  | text =>
    let spans := x.event.spans.filter fun sp =>
      x.filter.enables sp.callsite && Ceiling.allows (some top) sp.level
    obtain ⟨fields, eq, none⟩ := Line.ofText_eq x.event spans
    exact ⟨rfl, Line.spans spans, Text.sanitize x.event.message, fields, eq,
      fun without => by simp [spans, without, Line.spans], none, rfl, sanitize_of_inert⟩
  | json => exact ⟨rfl, _, _, rfl, rfl, rfl, rfl, rfl⟩

/-! ### What can happen after a set-up -/

/-- What happens to a program's logging. -/
inductive Action
  /-- An event comes in. -/
  | emit (e : Event)
  /-- The clock shows an hour. -/
  | tick (hour : Hour)
  /-- The filter is replaced. -/
  | refilter (filter : Filter)
  /-- The filter is replaced by what a text denotes. -/
  | reload (targets : String)
  /-- Logging is set up. -/
  | init (app : String) (o : Options)

namespace Action

/-- The program after an action. -/
def act : Action → Program → Program
  | emit e, p => p.emit e
  | tick hour, p => p.tick hour
  | refilter filter, p => (p.refilter filter).2
  | reload targets, p => (p.reload targets).2
  | init app o, p => (p.init app o).2

/-- The filter in force after an action that meets another one. -/
def filter (f : Filter) : Action → Filter
  | refilter filter => filter
  | reload targets => (Filter.parse? targets).getD f
  | emit _ | tick _ | init _ _ => f

/-- The hour that the clock shows after an action. -/
def hour (now : Hour) : Action → Hour
  | tick hour => hour
  | emit _ | refilter _ | reload _ | init _ _ => now

/-- The event of an action, if it passes the filter. -/
def passed (f : Filter) (now : Hour) : Action → Option Passed
  | emit e => if f.enables e.callsite then some ⟨f, now, e⟩ else none
  | tick _ | refilter _ | reload _ | init _ _ => none

end Action

/-- The program after some actions. -/
def run (p : Program) (as : List Action) : Program := as.foldl (fun p a => a.act p) p

/-- The filter in force after some actions that meet another one. -/
def filterAfter (f : Filter) (as : List Action) : Filter := as.foldl Action.filter f

/-- The events of some actions that pass. -/
def passing (f : Filter) (now : Hour) : List Action → List Passed
  | [] => []
  | a :: as => (a.passed f now).toList ++ passing (a.filter f) (a.hour now) as

/-! ### The three sinks -/

/-- The sinks of a set-up with a directory. -/
def sinksOf (printing : Bool) (all errors : Appender) : List Sink :=
  (if printing then [⟨.stdout, some .trace⟩] else []) ++
    [⟨.files all, some .trace⟩, ⟨.files errors, some .error⟩]

theorem allows_trace (l : Level) : Ceiling.allows (some .trace) l = true := by
  cases l <;> rfl

theorem allows_error (l : Level) : Ceiling.allows (some .error) l = decide (l = .error) := by
  cases l <;> rfl

/-- What an event that passes delivers to the files. -/
def deliver (format : Format) (x : Passed) : Delivery where
  hour := x.hour
  line := lineOf format .trace x
  severe := if x.event.level = .error then some (lineOf format .error x) else none

/-- The lines for everything are those of the events, and the lines for the errors those of the
errors among them. -/
theorem lines_deliver (format : Format) (xs : List Passed) :
    Archive.lines (xs.map (deliver format)) = xs.map (fun x => (x.hour, lineOf format .trace x)) ∧
      Archive.severe (xs.map (deliver format)) =
        (xs.filter (·.event.level = .error)).map fun x => (x.hour, lineOf format .error x) := by
  refine ⟨by simp [Archive.lines, deliver, Function.comp_def], ?_⟩
  induction xs with
  | nil => rfl
  | cons x xs ih =>
    rw [Archive.severe] at ih ⊢
    rw [List.map_cons, List.filterMap_cons, ih, List.filter_cons]
    by_cases severe : x.event.level = .error <;> simp [deliver, severe]

/-- An event that passes is printed if anything is, and delivered to the files. -/
theorem writeAll_sinksOf (format : Format) (f : Filter) (printing : Bool) (e : Event) (p : Program)
    (all errors : Appender) :
    let x : Passed := ⟨f, p.hour, e⟩
    let archive := (Archive.mk all errors p.files).take (deliver format x)
    writeAll ⟨format, f, sinksOf printing all errors⟩ e (sinksOf printing all errors) p =
      (sinksOf printing archive.all archive.errors,
        { p with
          printed := if printing then p.printed.push (lineOf format .trace x) else p.printed
          files := archive.files }) := by
  have told (sinks : List Sink) (d : Destination) (top : Level) :
      line ⟨format, f, sinks⟩ ⟨d, some top⟩ e = lineOf format top ⟨f, p.hour, e⟩ := rfl
  by_cases severe : e.level = .error <;> cases printing <;>
    simp [sinksOf, writeAll, write, allows_trace, allows_error, severe, Archive.take, deliver, told]

theorem emit_of_enables {format : Format} {f : Filter} {printing : Bool} {e : Event} {p : Program}
    {all errors : Appender} (installed : p.pipeline = some ⟨format, f, sinksOf printing all errors⟩)
    (passes : f.enables e.callsite = true) :
    let x : Passed := ⟨f, p.hour, e⟩
    let archive := (Archive.mk all errors p.files).take (deliver format x)
    p.emit e = { p with
      printed := if printing then p.printed.push (lineOf format .trace x) else p.printed
      files := archive.files
      pipeline := some ⟨format, f, sinksOf printing archive.all archive.errors⟩ } := by
  intro x archive
  rw [emit, installed]
  exact (if_pos passes).trans (by rw [writeAll_sinksOf])

/-! ### Runs -/

/-- A program whose logging is set up: the clock, the filter, the files with their appenders and
what was printed. -/
structure Installed (format : Format) (printing : Bool) (now : Hour) (f : Filter) (x : Archive)
    (printed : List Line) (p : Program) : Prop where
  /-- Setting up is over. -/
  setup : p.setup = .done
  /-- What is installed. -/
  pipeline : p.pipeline = some ⟨format, f, sinksOf printing x.all x.errors⟩
  /-- The clock. -/
  hour : p.hour = now
  /-- The files. -/
  files : p.files = x.files
  /-- What was printed. -/
  printed : p.printed.toList = printed

namespace Installed

variable {format : Format} {printing : Bool} {now : Hour} {f : Filter} {x : Archive}
  {printed : List Line} {p : Program}

/-- Once logging is set up, another attempt gives no sinks and changes nothing. -/
theorem init (h : Installed format printing now f x printed p) (app : String) (o : Options) :
    p.init app o = (.ok 0, p) := by
  rw [Program.init, h.setup]

/-- An action changes at most the clock and the filter, and prints and delivers the event that
passes. -/
theorem act (h : Installed format printing now f x printed p) (a : Action) :
    let passed := (a.passed f now).toList
    Installed format printing (a.hour now) (a.filter f) (x.run (passed.map (deliver format)))
      (printed ++ if printing then passed.map (lineOf format .trace) else []) (a.act p) := by
  intro passed
  have still : Installed format printing now f x (printed ++ if printing then [] else []) p :=
    { h with printed := by simp [h.printed] }
  cases a with
  | emit e =>
    by_cases passes : f.enables e.callsite = true
    · have archive : (⟨x.all, x.errors, p.files⟩ : Archive) = x := by rw [h.files]
      have emitted : passed = [⟨f, p.hour, e⟩] := by simp [passed, Action.passed, passes, h.hour]
      rw [Action.act, emit_of_enables h.pipeline passes, archive, emitted]
      refine ⟨h.setup, rfl, h.hour, rfl, ?_⟩
      cases printing <;> simp [h.printed]
    · have emitted : passed = [] := by simp [passed, Action.passed, passes]
      have acts : p.emit e = p := by
        rw [Program.emit, h.pipeline]
        exact if_neg passes
      rw [Action.act, acts, emitted]
      exact still
  | tick hour => exact { still with hour := rfl }
  | refilter filter =>
    have acts : (p.refilter filter).2 =
        { p with pipeline := some ⟨format, filter, sinksOf printing x.all x.errors⟩ } := by
      rw [Program.refilter, h.pipeline]
    rw [Action.act, acts]
    exact { still with pipeline := rfl }
  | reload targets =>
    rw [Action.act, Action.filter, Program.reload]
    cases Filter.parse? targets with
    | none => exact still
    | some filter =>
      have acts : (p.refilter filter).2 =
          { p with pipeline := some ⟨format, filter, sinksOf printing x.all x.errors⟩ } := by
        rw [Program.refilter, h.pipeline]
      show Installed _ _ _ _ _ _ (p.refilter filter).2
      rw [acts]
      exact { still with pipeline := rfl }
  | init app o =>
    rw [Action.act, h.init]
    exact still

/-- After any actions, everything that passed has been printed and delivered, one after the
other. -/
theorem run (h : Installed format printing now f x printed p) (as : List Action) :
    let passed := passing f now as
    ∃ now', Installed format printing now' (filterAfter f as) (x.run (passed.map (deliver format)))
      (printed ++ if printing then passed.map (lineOf format .trace) else []) (p.run as) := by
  induction as generalizing now f x printed p with
  | nil => exact ⟨now, { h with printed := by simp [passing, h.printed, Program.run] }⟩
  | cons a as ih =>
    obtain ⟨now', last⟩ := ih (h.act a)
    refine ⟨now', ?_⟩
    have steps : x.run ((passing f now (a :: as)).map (deliver format)) =
        (x.run ((a.passed f now).toList.map (deliver format))).run
          ((passing (a.filter f) (a.hour now) as).map (deliver format)) := by
      rw [passing, List.map_append, Archive.run, List.foldl_append, ← Archive.run, ← Archive.run]
    rw [steps]
    refine { last with printed := last.printed.trans ?_ }
    cases printing <;> simp [passing]

end Installed

/-! ### Setting up -/

/-- Opening the first file of a series: it is there then, and so is its directory. What is kept from
before is everything but files of the owner. -/
theorem openLog_spec {s : Series} {p p' : Program} {a : Appender}
    (h : p.openLog s = (.ok a, p')) :
    a = ⟨s, p.hour, p.hour⟩ ∧ p' = { p with files := p'.files } ∧
      p'.files.isDir (s.path p.hour).dropLast = true ∧ p'.files.lines? (s.path p.hour) ≠ none ∧
      (∀ q, p.files.isDir q = true → p'.files.isDir q = true) ∧
      ∀ q, q ≠ s.path p.hour → ¬ s.Owns q → p'.files.lines? q = p.files.lines? q := by
  unfold openLog at h
  split at h
  next files opened =>
    cases h
    have thins := s.thins_prune p.files
    obtain ⟨keeps, parent, lines⟩ := Files.openIn_spec opened
    refine ⟨rfl, rfl, parent, by simp [lines], fun q dir => ?_, fun q other foreign => ?_⟩
    · rw [← thins.dirs, Files.isDir_iff] at dir
      exact Files.isDir_iff.2 (keeps q _ dir)
    · rw [lines, if_neg other]
      exact (thins.lines q).resolve_right fun gone => foreign gone.2.1
  next => cases h

/-- **Setting up opens two files**, with a directory in the options: one for everything and one for
errors only. Both are there when everything is open. -/
theorem openSinks_spec {app : String} {o : Options} {p p' : Program} {sinks : List Sink}
    (dir : o.dir ≠ "") (h : p.openSinks app o = (.ok sinks, p')) :
    let all := series app o
    let errors := series (errorOwner app) o
    sinks = [⟨.files ⟨all, p.hour, p.hour⟩, some .trace⟩,
        ⟨.files ⟨errors, p.hour, p.hour⟩, some .error⟩] ∧
      p' = { p with files := p'.files } ∧ Archive.Apart all errors p'.files ∧
      p'.files.lines? (all.path p.hour) ≠ none ∧ p'.files.lines? (errors.path p.hour) ≠ none := by
  intro all errors
  unfold openSinks at h
  rw [if_neg dir] at h
  split at h
  next => cases h
  next a p₁ first =>
    split at h
    next => cases h
    next b p₂ second =>
      cases h
      obtain ⟨rfl, same, parent, there, -, -⟩ := openLog_spec first
      obtain ⟨rfl, same', parent', there', dirs, frame⟩ := openLog_spec second
      have hour : p₁.hour = p.hour := by rw [same]
      rw [hour] at parent' there' frame
      have apart (h h' : Hour) := series_apart app o h h'
      have spared (h : Hour) : ¬ errors.Owns (all.path h) := fun mine =>
        Bool.eq_false_iff.1 (apart h h).2 mine.2
      have siblings (s : Series) (h h' : Hour) : (s.path h).dropLast = (s.path h').dropLast := by
        obtain ⟨-, parent, eq⟩ := s.path_spec
        rw [eq, eq]
      refine ⟨by rw [hour], by rw [same', same], ⟨rfl, fun h h' => (apart h h').1, spared,
        fun h => ?_, fun h => ?_⟩, ?_, there'⟩
      · rw [siblings all h p.hour]
        exact dirs _ parent
      · rw [siblings errors h p.hour]
        exact parent'
      · rw [frame _ (apart _ _).1 (spared _)]
        exact there

/-- The text of the filter. -/
theorem levelText_eq (o : Options) (p : Program) :
    levelText o p = o.level.getD (p.environment.logLevel.getD "info") := by
  unfold levelText
  cases o.level <;> rfl

/-- A successful set-up with a directory opens both files, reads the filter and installs the
sinks. -/
theorem init_spec {p p₁ : Program} {app : String} {o : Options} {n : Nat}
    (fresh : p.setup = .fresh) (dir : o.dir ≠ "") (ok : p.init app o = (.ok n, p₁)) :
    let all := series app o
    let errors := series (errorOwner app) o
    ∃ f, Filter.parse? (o.level.getD (p.environment.logLevel.getD "info")) = some f ∧
      n = (if o.stdout then 3 else 2) ∧ Archive.Apart all errors p₁.files ∧
      Installed o.format o.stdout p.hour f
        ⟨⟨all, p.hour, p.hour⟩, ⟨errors, p.hour, p.hour⟩, p₁.files⟩ p.printed.toList p₁ ∧
      p₁.files.lines? (all.path p.hour) ≠ none ∧ p₁.files.lines? (errors.path p.hour) ≠ none := by
  intro all errors
  rw [init, fresh] at ok
  unfold install at ok
  dsimp only at ok
  split at ok
  next n' p' installed =>
    cases ok
    split at installed
    next => cases installed
    next writing p'' opened =>
      obtain ⟨rfl, same, apart, there, there'⟩ := openSinks_spec dir opened
      rw [levelText_eq] at installed
      split at installed
      next => cases installed
      next f parsed =>
        cases installed
        have text : p''.environment = p.environment := by rw [same]
        rw [text] at parsed
        refine ⟨f, parsed, ?_, apart, ⟨rfl, rfl, by rw [same], rfl, by rw [same]⟩, there, there'⟩
        cases o.stdout <;> rfl
  next => cases ok

/-- **Which sink gets which event.** Let logging be set up for the first time, with a directory in
the options, and let this succeed. The filter then is the one of the options, else of the
environment, else `info`. Whatever is done afterwards (events, replacements of the filter, further
attempts to set up, in any hours), the series of files with everything gets exactly the events that
pass the filter in force, in order; the series with errors those of them that are errors; the
standard output the same as the first series if the options say so, and else nothing. Each line says
the level, the target and the message of its event.

As long as the clock shows no later hour, each series is the one file that was opened at first. With
the hours each goes on to new files, and with a limit old ones are removed; what was opened last is
there, for the errors as long as no later event was written to a newer file. Nothing else changes in
the directory, but for files that are removed because an owner takes them for its own. The format
and the sinks stay what they are, the filter is the last one that was set, and each further attempt
to set up gives no sinks and changes nothing. -/
theorem init_routes {p p₁ : Program} {app : String} {o : Options} {n : Nat}
    (fresh : p.setup = .fresh) (dir : o.dir ≠ "") (ok : p.init app o = (.ok n, p₁)) :
    let all : Series := ⟨o.dir, app, o.maxFiles.toNat⟩
    let errors : Series := ⟨o.dir, app ++ "-err", o.maxFiles.toNat⟩
    ∃ f old failed,
      Filter.parse? (o.level.getD (p.environment.logLevel.getD "info")) = some f ∧
      n = (if o.stdout then 3 else 2) ∧ (∀ h h', all.path h ≠ errors.path h') ∧
      p₁.files.lines? (all.path p.hour) = some old ∧
      p₁.files.lines? (errors.path p.hour) = some failed ∧
      ∀ as : List Action,
        let q := p₁.run as
        let passed := passing f p.hour as
        let lines := passed.map fun x => (x.hour, lineOf o.format .trace x)
        let severe := (passed.filter (·.event.level = .error)).map
          fun x => (x.hour, lineOf o.format .error x)
        let a := all.appender p.hour p₁.files lines
        let b := errors.appender p.hour p₁.files severe
        (∀ x ∈ passed, ∀ top, (lineOf o.format top x).Tells o.format x.event) ∧
        q.printed.toList =
          p.printed.toList ++ (if o.stdout then lines.map Prod.snd else []) ∧
        all.Holds p.hour p₁.files q.files lines ∧ errors.Holds p.hour p₁.files q.files severe ∧
        ((∀ x ∈ passed, ¬ p.hour < x.hour) →
          q.files.lines? (all.path p.hour) = some (old ++ lines.map Prod.snd) ∧
          q.files.lines? (errors.path p.hour) = some (failed ++ severe.map Prod.snd)) ∧
        (a.opened = a.reached → q.files.lines? (all.path a.opened) ≠ none) ∧
        (b.opened = b.reached → b.reached = a.reached →
          q.files.lines? (errors.path b.opened) ≠ none) ∧
        (∀ path, (∀ h, path ≠ all.path h ∧ path ≠ errors.path h) →
          q.files.lines? path = p₁.files.lines? path ∨
          all.limit ≠ 0 ∧ (all.Owns path ∨ errors.Owns path) ∧ q.files.lines? path = none) ∧
        q.pipeline = some ⟨o.format, filterAfter f as, sinksOf o.stdout a b⟩ ∧
        ∀ app' o', q.init app' o' = (.ok 0, q) := by
  intro all errors
  obtain ⟨f, parsed, count, apart, installed, there, there'⟩ := init_spec fresh dir ok
  obtain ⟨old, found⟩ := Option.ne_none_iff_exists'.1 there
  obtain ⟨failed, found'⟩ := Option.ne_none_iff_exists'.1 there'
  refine ⟨f, old, failed, parsed, count, apart.paths, found, found', fun as => ?_⟩
  intro q passed lines severe a b
  obtain ⟨now, last⟩ := installed.run as
  obtain ⟨delivered, deliveredErrors⟩ := lines_deliver o.format passed
  obtain ⟨turned, turned', sound⟩ :=
    Archive.run_initial apart there there' (passed.map (deliver o.format))
  have holds := sound.holds
  have within := sound.within_hour found found' turned turned'
  have present := sound.allThere
  have present' := sound.errorsThere
  have others := sound.others
  have sinks := last.pipeline
  have printed := last.printed
  rw [delivered, deliveredErrors] at holds within
  rw [delivered] at turned
  rw [deliveredErrors] at turned'
  rw [turned] at present
  rw [turned, turned'] at present' sinks
  rw [← last.files] at holds within present present' others
  refine ⟨fun x _ top => lineOf_tells o.format top x, ?_, holds.1, holds.2, fun still => ?_,
    present, present', others, sinks, fun app' o' => last.init app' o'⟩
  · rw [printed, List.map_map]
    rfl
  · refine within fun d mem => ?_
    obtain ⟨x, came, rfl⟩ := List.mem_map.1 mem
    exact still x came

/-- Six events around midnight: the first filter stops one of them and the second one another. What
passes is printed, and the new files have what came after midnight. The environment has no say, as
the options name a filter, and neither has the second set-up. -/
theorem init_routes_midnight :
    let late : Hour := ⟨"2025-01-31-23", by decide +kernel⟩
    let early : Hour := ⟨"2025-02-01-00", by decide +kernel⟩
    let p := start ⟨some "trace", none, none⟩ late .empty
    let o : Options := ⟨"logs", some "warn,app", .text, 720, true⟩
    let detail := Event.plain .debug "app" "detail" [] []
    let ready := Event.plain .info "other" "ready" [] []
    let fault := Event.plain .error "other" "fault" [] []
    p.setup = .fresh ∧ o.dir ≠ "" ∧ ∃ p₁, p.init "queue" o = (.ok 3, p₁) ∧
      let q := p₁.run [.emit detail, .emit ready, .tick early, .emit fault, .reload "info",
        .emit detail, .init "other" .standard, .emit ready]
      q.printed.toList =
        [.text "DEBUG app: detail", .text "ERROR other: fault", .text " INFO other: ready"] ∧
      q.files.lines? ["logs", "queue.2025-02-01-00"] =
        some [.text "ERROR other: fault", .text " INFO other: ready"] ∧
      q.files.lines? ["logs", "queue-err.2025-02-01-00"] = some [.text "ERROR other: fault"] := by
  intro late early p o detail ready fault
  let as : List Action := [.emit detail, .emit ready, .tick early, .emit fault, .reload "info",
    .emit detail, .init "other" .standard, .emit ready]
  let app : Filter := [⟨some "app", [], some .trace⟩, ⟨none, [], some .warn⟩]
  let all : Series := ⟨"logs", "queue", 720⟩
  let errors : Series := ⟨"logs", "queue-err", 720⟩
  -- The set-up: three sinks, and nothing at the paths of the next hour.
  have setup : (p.init "queue" o).1.toOption = some 3 ∧
      Appender.freeIn all (p.init "queue" o).2.files early = true ∧
      Appender.freeIn errors (p.init "queue" o).2.files early = true ∧
      ((p.init "queue" o).2.files.lines? (all.path early)).isNone ∧
      ((p.init "queue" o).2.files.lines? (errors.path early)).isNone := by decide +kernel
  have passed : Filter.parse? "warn,app" = some app ∧ late < early ∧ passing app late as =
      [⟨app, late, detail⟩, ⟨app, early, fault⟩, ⟨[⟨none, [], some .info⟩], early, ready⟩] := by
    decide +kernel
  have written : Line.ofText detail [] = "DEBUG app: detail" ∧
      Line.ofText fault [] = "ERROR other: fault" ∧
      Line.ofText ready [] = " INFO other: ready" ∧
      all.path early = ["logs", "queue.2025-02-01-00"] ∧
      errors.path early = ["logs", "queue-err.2025-02-01-00"] := by decide +kernel
  have dir : o.dir ≠ "" := by decide
  generalize eq : p.init "queue" o = r at setup ⊢
  obtain ⟨answer, p₁⟩ := r
  obtain ⟨three, free, freeErrors, new, newErrors⟩ := setup
  obtain rfl : answer = .ok 3 := by
    cases answer with
    | ok n => exact congrArg Except.ok (Option.some.inj three)
    | error e => cases three
  refine ⟨rfl, dir, p₁, rfl, ?_⟩
  obtain ⟨f, old, failed, parsed, -, -, -, -, routes⟩ := init_routes (p := p) rfl dir eq
  obtain rfl : f = app := Option.some.inj (parsed.symm.trans passed.1)
  obtain ⟨-, printed, holds, holdsErrors, -, there, thereErrors, -⟩ := routes as
  -- With the new hour both appenders go on to new files.
  let lines : List (Hour × Line) := [(late, .text "DEBUG app: detail"),
    (early, .text "ERROR other: fault"), (early, .text " INFO other: ready")]
  let severe : List (Hour × Line) := [(early, .text "ERROR other: fault")]
  have told (top : Level) (f : Filter) (h : Hour) :
      lineOf .text top ⟨f, h, detail⟩ = .text "DEBUG app: detail" ∧
        lineOf .text top ⟨f, h, fault⟩ = .text "ERROR other: fault" ∧
        lineOf .text top ⟨f, h, ready⟩ = .text " INFO other: ready" :=
    ⟨congrArg Line.text written.1, congrArg Line.text written.2.1,
      congrArg Line.text written.2.2.1⟩
  have took :
      (passing app p.hour as).map (fun x => (x.hour, lineOf o.format .trace x)) = lines := by
    show (passing app late as).map (fun x => (x.hour, lineOf .text .trace x)) = lines
    simp only [passed.2.2, lines, List.map_cons, List.map_nil, (told _ _ _).1, (told _ _ _).2.1,
      (told _ _ _).2.2]
  have tookErrors : ((passing app p.hour as).filter (·.event.level = .error)).map
      (fun x => (x.hour, lineOf o.format .error x)) = severe := by
    show ((passing app late as).filter (·.event.level = .error)).map
      (fun x => (x.hour, lineOf .text .error x)) = severe
    rw [passed.2.2]
    exact congrArg (fun l => [(early, l)]) (told .error app early).2.1
  have placed : all.placed late p₁.files lines = lines ∧
      all.appender late p₁.files lines = ⟨all, early, early⟩ := by
    simp [Series.placed, Series.appender, filed, turned, Appender.next, lines, passed.2.1, free,
      Hour.lt_irrefl]
  have placedErrors : errors.placed late p₁.files severe = severe ∧
      errors.appender late p₁.files severe = ⟨errors, early, early⟩ := by
    simp [Series.placed, Series.appender, filed, turned, Appender.next, severe, passed.2.1,
      freeErrors]
  rw [took] at printed holds there thereErrors
  rw [tookErrors] at holdsErrors thereErrors
  change (all.appender late p₁.files lines).opened = (all.appender late p₁.files lines).reached →
    (p₁.run as).files.lines? (all.path (all.appender late p₁.files lines).opened) ≠ none at there
  change (errors.appender late p₁.files severe).opened =
      (errors.appender late p₁.files severe).reached →
    (errors.appender late p₁.files severe).reached = (all.appender late p₁.files lines).reached →
    (p₁.run as).files.lines? (errors.path (errors.appender late p₁.files severe).opened) ≠ none
    at thereErrors
  rw [placed.2] at there thereErrors
  rw [placedErrors.2] at thereErrors
  have content := holds.eq_of_new (h := early) (Option.isNone_iff_eq_none.1 new) (there rfl)
  have contentErrors :=
    holdsErrors.eq_of_new (h := early) (Option.isNone_iff_eq_none.1 newErrors) (thereErrors rfl rfl)
  refine ⟨printed, ?_, ?_⟩
  · rw [← written.2.2.2.1]
    refine content.trans (congrArg some ?_)
    show ofHour early (all.placed late p₁.files lines) = _
    rw [placed.1]
    simp [ofHour, lines, Hour.ne_of_lt passed.2.1]
  · rw [← written.2.2.2.2]
    refine contentErrors.trans (congrArg some ?_)
    show ofHour early (errors.placed late p₁.files severe) = _
    rw [placedErrors.1]
    simp [ofHour, severe]

end Program

end QueueLedger.Log
