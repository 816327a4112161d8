import QueueLedger.Proofs.LogFiles
/-!
# What log files hold after many hours

A program writes its log for hours, and with each hour come new files. Old ones are removed if there
are too many. This module says what is in each file then: its old lines, and after them the lines
that came in while it was in use (`Grown`).

## Proof shape

Which file takes a line depends on the hours of the lines alone, and on the paths at which nothing
can be opened (`Appender.next`, `filed`). The hour that an appender has reached never goes back, so
a file that was left is never used again, and one whose hour has not come has not been touched
(`Tracks`). One line keeps this (`Tracks.write`).

Both appenders of a program write into one directory, and the owner of one series may take the files
of the other one for its own. It removes them only when it goes on to a new hour, so what is still
in use is safe if the other appender has reached the same hour (`Archive.Sound`).
-/

namespace QueueLedger.Log

/-! ### The order of hours -/

namespace Hour

theorem lt_irrefl (h : Hour) : ¬ h < h := String.lt_irrefl h.text

theorem lt_trans {a b c : Hour} (lt : a < b) (lt' : b < c) : a < c := String.lt_trans lt lt'

theorem ne_of_lt {a b : Hour} (lt : a < b) : a ≠ b := by
  rintro rfl
  exact a.lt_irrefl lt

/-- An hour that is not before another one is before what that one is before. -/
theorem lt_of_not_lt_of_lt {a b c : Hour} (le : ¬ b < a) (lt : b < c) : a < c := by
  show a.text < c.text
  exact Std.lt_of_le_of_lt (String.not_lt.1 le) lt

theorem lt_of_lt_of_not_lt {a b c : Hour} (lt : a < b) (le : ¬ c < b) : a < c := by
  show a.text < c.text
  exact Std.lt_of_lt_of_le lt (String.not_lt.1 le)

theorem not_lt_of_not_lt_of_lt {a b c : Hour} (le : ¬ b < a) (lt : b < c) : ¬ c < a :=
  fun back => a.lt_irrefl (lt_trans (lt_of_not_lt_of_lt le lt) back)

end Hour

/-! ### Making room -/

namespace Series

/-- Whether a path is in the directory of a series and its name is one of the owner's. -/
def Owns (s : Series) (q : FilePath) : Prop :=
  q.dropLast = s.dirPath ∧ q.getLast?.any (Files.owned s.owner) = true

/-- One tree is the other one but for files that were removed to make room for a series. -/
structure Thins (s : Series) (fs fs' : Files) : Prop where
  /-- Directories stay. -/
  dirs : ∀ q, fs'.isDir q = fs.isDir q
  /-- Files stay, or are removed. -/
  lines : ∀ q, fs'.lines? q = fs.lines? q ∨ s.limit ≠ 0 ∧ s.Owns q ∧ fs'.lines? q = none

theorem thins_prune (s : Series) (fs : Files) : s.Thins fs (s.prune fs) := by
  refine ⟨fun q => ?_, fun q => ?_⟩
  · obtain same | ⟨-, ⟨lines, file⟩, -, -, gone⟩ := Files.node?_prune s.dirPath s.owner s.limit fs q
    · exact Files.isDir_congr same
    · rw [Files.isDir, Series.prune, gone, Files.isDir, file]
  · obtain same | ⟨limited, -, here, mine, gone⟩ :=
      Files.node?_prune s.dirPath s.owner s.limit fs q
    · exact Or.inl (Files.lines?_congr same)
    · exact Or.inr ⟨limited, ⟨here, mine⟩, by rw [Files.lines?, Series.prune, gone]⟩

end Series

/-! ### Which file takes a line -/

namespace Appender

/-- Where an appender is after a line that came in an hour: files can be opened for the hours that
are `free`. -/
def next (free : Hour → Bool) (now : Hour) (a : Appender) : Appender :=
  if a.reached < now then
    { a with reached := now, opened := if free now then now else a.opened }
  else a

/-- The hours for which a file can be opened are those with no directory at its path. -/
def freeIn (s : Series) (fs : Files) (h : Hour) : Bool := !fs.isDir (s.path h)

/-- All that going on to a later hour can do. -/
theorem roll_cases {a : Appender} {now : Hour} {fs : Files}
    (parent : fs.isDir (a.series.path now).dropLast = true) :
    (¬ a.reached < now ∧ a.roll now fs = (a, fs)) ∨
    (a.reached < now ∧ freeIn a.series fs now = false ∧
      a.roll now fs = ({ a with reached := now }, a.series.prune fs)) ∨
    (a.reached < now ∧ freeIn a.series fs now = true ∧
      a.roll now fs = ({ a with reached := now, opened := now },
        (a.series.prune fs).add (a.series.path now) (.file #[]))) := by
  unfold roll
  split
  next later =>
    have thins := a.series.thins_prune fs
    rw [← thins.dirs] at parent
    rw [Series.open?, Files.openIn_eq parent, freeIn, ← thins.dirs]
    cases (a.series.prune fs).isDir (a.series.path now) with
    | true => exact Or.inr (Or.inl ⟨later, rfl, rfl⟩)
    | false => exact Or.inr (Or.inr ⟨later, rfl, rfl⟩)
  next same => exact Or.inl ⟨same, rfl⟩

end Appender

/-- Lines that come in at some hours, each with the hour of the file that takes it. -/
def filed (free : Hour → Bool) (a : Appender) : List (Hour × Line) → List (Hour × Line)
  | [] => []
  | (now, l) :: rest =>
    let b := a.next free now
    (b.opened, l) :: filed free b rest

/-- Where an appender is after lines that came in at some hours. -/
def turned (free : Hour → Bool) (a : Appender) (lines : List (Hour × Line)) : Appender :=
  lines.foldl (fun a x => a.next free x.1) a

/-- The lines of an hour. -/
def ofHour (h : Hour) (lines : List (Hour × Line)) : List Line :=
  (lines.filter fun x => x.1 = h).map Prod.snd

theorem filed_append (free : Hour → Bool) (a : Appender) (xs ys : List (Hour × Line)) :
    filed free a (xs ++ ys) = filed free a xs ++ filed free (turned free a xs) ys := by
  induction xs generalizing a with
  | nil => rfl
  | cons x xs ih => exact congrArg _ (ih _)

theorem turned_append (free : Hour → Bool) (a : Appender) (xs ys : List (Hour × Line)) :
    turned free a (xs ++ ys) = turned free (turned free a xs) ys := by
  rw [turned, List.foldl_append, ← turned, ← turned]

/-- No line is lost or moved. -/
theorem map_snd_filed (free : Hour → Bool) (a : Appender) (xs : List (Hour × Line)) :
    (filed free a xs).map Prod.snd = xs.map Prod.snd := by
  induction xs generalizing a with
  | nil => rfl
  | cons x xs ih => rw [filed, List.map_cons, ih, List.map_cons]

theorem ofHour_append (h : Hour) (xs ys : List (Hour × Line)) :
    ofHour h (xs ++ ys) = ofHour h xs ++ ofHour h ys := by
  rw [ofHour, List.filter_append, List.map_append, ofHour, ofHour]

theorem ofHour_singleton (h h' : Hour) (l : Line) :
    ofHour h [(h', l)] = if h' = h then [l] else [] := by
  by_cases same : h' = h <;> simp [ofHour, same]

/-! ### What becomes of a file -/

/-- What may become of the file of an hour whose lines were `old`, if it was there, and that took
the lines `added`. Files are removed only if there is a limit, and only a `later` one can be removed
before it takes its first line. -/
inductive Grown (limit : Nat) (later : Prop) (old : Option (List Line)) (added : List Line) :
    Option (List Line) → Prop
  /-- It was never there. -/
  | absent (never : old = none) (nothing : added = []) : Grown limit later old added none
  /-- It is there, the new lines after the old ones. -/
  | there (been : old ≠ none ∨ added ≠ []) :
      Grown limit later old added (some (old.getD [] ++ added))
  /-- It was removed. -/
  | removed (limited : limit ≠ 0) : Grown limit later old added none
  /-- It was removed and made again. -/
  | remade (limited : limit ≠ 0) (ahead : later) : Grown limit later old added (some added)

namespace Grown

variable {limit : Nat} {later : Prop} {old new new' : Option (List Line)} {added : List Line}

/-- A file that is there has grown by nothing. -/
theorem refl (old : Option (List Line)) : Grown limit later old [] old := by
  cases old with
  | none => exact .absent rfl rfl
  | some ls =>
    have there : Grown limit later (some ls) [] (some (ls ++ [])) :=
      .there (Or.inl (Option.some_ne_none ls))
    rwa [List.append_nil] at there

/-- It may be removed. -/
theorem thin (h : Grown limit later old added new) (le : new' = new ∨ limit ≠ 0 ∧ new' = none) :
    Grown limit later old added new' := by
  obtain rfl | ⟨limited, rfl⟩ := le
  · exact h
  · exact .removed limited

/-- A file that was in use takes one more line, if it is there. -/
theorem append (h : Grown limit later old added new) (used : old ≠ none ∨ added ≠ []) (l : Line) :
    Grown limit later old (added ++ [l]) (new.map (· ++ [l])) := by
  cases h with
  | absent never nothing => exact absurd used (by simp [never, nothing])
  | there been =>
    rw [Option.map_some, List.append_assoc]
    exact .there (Or.inr (by simp))
  | removed limited => exact .removed limited
  | remade limited ahead => exact .remade limited ahead

/-- A file that is opened takes its first line. It is made if it was removed. -/
theorem first (h : Grown limit later old [] new) (ahead : later) (l : Line) :
    Grown limit later old [l] (some (new.getD [] ++ [l])) := by
  have taken : Grown limit later old [l] (some (old.getD [] ++ [l])) := .there (Or.inr (by simp))
  cases h with
  | absent never => rwa [never] at taken ⊢
  | there been => rwa [List.append_nil, Option.getD_some]
  | removed limited => exact .remade limited ahead
  | remade limited => exact .remade limited ahead

/-- A file that was in use from the start, and is still there, has its old lines and then all that
it took. -/
theorem eq_of_there {start : Hour} {old ls : List Line}
    (h : Grown limit (start ≠ start) (some old) added (some ls)) : ls = old ++ added := by
  cases h with
  | there => rfl
  | remade limited ahead => exact absurd rfl ahead

end Grown

/-! ### One appender -/

/-- The files of a series hold the lines `got`, since the tree was `fs₀` and the file of the hour
`start` was in use. -/
structure Tracks (s : Series) (start : Hour) (fs₀ : Files) (got : Hour → List Line) (a : Appender)
    (fs : Files) : Prop where
  /-- The appender is that of the series. -/
  series : a.series = s
  /-- It does not go back. -/
  started : ¬ a.reached < start
  /-- Nor does the file in use come from a later hour. -/
  behind : ¬ a.reached < a.opened
  /-- Later files have got nothing. -/
  ahead : ∀ h, a.reached < h → got h = []
  /-- The file in use was there, or has got something. -/
  used : fs₀.lines? (s.path a.opened) ≠ none ∨ got a.opened ≠ []
  /-- What each file holds. -/
  grown : ∀ h, Grown s.limit (h ≠ start) (fs₀.lines? (s.path h)) (got h) (fs.lines? (s.path h))

namespace Tracks

variable {s : Series} {start now : Hour} {fs₀ fs fs' : Files} {got : Hour → List Line}
  {a : Appender}

/-- At first, the file in use is there. -/
theorem initial (there : fs₀.lines? (s.path start) ≠ none) :
    Tracks s start fs₀ (fun _ => []) ⟨s, start, start⟩ fs₀ :=
  ⟨rfl, start.lt_irrefl, start.lt_irrefl, fun _ _ => rfl, Or.inl there, fun _ => .refl _⟩

/-- Files may be removed. -/
theorem thin (t : Tracks s start fs₀ got a fs)
    (le : ∀ h, fs'.lines? (s.path h) = fs.lines? (s.path h) ∨
      s.limit ≠ 0 ∧ fs'.lines? (s.path h) = none) : Tracks s start fs₀ got a fs' :=
  { t with grown := fun h => (t.grown h).thin (le h) }

/-- An hour may be reached without a new file. -/
theorem reach (t : Tracks s start fs₀ got a fs) (later : a.reached < now) :
    Tracks s start fs₀ got { a with reached := now } fs where
  series := t.series
  started := Hour.not_lt_of_not_lt_of_lt t.started later
  behind := Hour.not_lt_of_not_lt_of_lt t.behind later
  ahead h lt := t.ahead h (Hour.lt_trans later lt)
  used := t.used
  grown := t.grown

/-- The file in use takes a line. -/
theorem append (t : Tracks s start fs₀ got a fs) (l : Line) :
    Tracks s start fs₀ (fun h => got h ++ ofHour h [(a.opened, l)]) a
      (fs.append (s.path a.opened) l) where
  series := t.series
  started := t.started
  behind := t.behind
  ahead h lt := by
    have other : a.opened ≠ h := Hour.ne_of_lt (Hour.lt_of_not_lt_of_lt t.behind lt)
    rw [t.ahead h lt, ofHour_singleton, if_neg other, List.append_nil]
  used := t.used.imp_right fun got => by simp [got]
  grown h := by
    rw [Files.lines?_append, ofHour_singleton]
    by_cases here : a.opened = h
    · subst here
      simpa using (t.grown a.opened).append t.used l
    · have other : s.path h ≠ s.path a.opened := fun same => here (Series.path_injective same).symm
      simpa [here, other] using t.grown h

/-- A new file takes its first line. -/
theorem opens (t : Tracks s start fs₀ got a fs) (later : a.reached < now)
    (free : fs.isDir (s.path now) = false) (l : Line) :
    Tracks s start fs₀ (fun h => got h ++ ofHour h [(now, l)])
      { a with reached := now, opened := now }
      ((fs.add (s.path now) (.file #[])).append (s.path now) l) where
  series := t.series
  started := Hour.not_lt_of_not_lt_of_lt t.started later
  behind := now.lt_irrefl
  ahead h lt := by
    rw [t.ahead h (Hour.lt_trans later lt), ofHour_singleton, if_neg (Hour.ne_of_lt lt),
      List.append_nil]
  used := Or.inr (by simp [ofHour_singleton])
  grown h := by
    rw [Files.lines?_append, Files.lines?_add_file free, ofHour_singleton]
    by_cases here : now = h
    · subst here
      have ahead : now ≠ start := (Hour.ne_of_lt (Hour.lt_of_not_lt_of_lt t.started later)).symm
      have grown := t.grown now
      rw [t.ahead now later] at grown ⊢
      simpa using grown.first ahead l
    · have other : s.path h ≠ s.path now := fun same => here (Series.path_injective same).symm
      simpa [here, other] using t.grown h

/-- The first file, if it is still there, has its old lines and then all that it got. -/
theorem eq_of_there (t : Tracks s start fs₀ got a fs) {old : List Line}
    (there : fs₀.lines? (s.path start) = some old) (now : fs.lines? (s.path start) ≠ none) :
    fs.lines? (s.path start) = some (old ++ got start) := by
  obtain ⟨ls, found⟩ := Option.ne_none_iff_exists'.1 now
  have grown := t.grown start
  rw [there, found] at grown
  rw [found, grown.eq_of_there]

/-- What one line does: the appender goes on as the hours say, the file in use takes the line if it
is there, and others are removed only in a new hour. The file in use is there if it is the one of
the hour that was reached, and was there before if it is no new one. -/
theorem write (t : Tracks s start fs₀ got a fs) (dirs : ∀ q, fs.isDir q = fs₀.isDir q)
    (parent : fs₀.isDir (s.path now).dropLast = true) (l : Line) :
    let b := a.next (Appender.freeIn s fs₀) now
    ∃ fs', a.write now l fs = (b, fs') ∧ (∀ q, fs'.isDir q = fs₀.isDir q) ∧
      Tracks s start fs₀ (fun h => got h ++ ofHour h [(b.opened, l)]) b fs' ∧
      (∀ q, q ≠ s.path b.opened → fs'.lines? q = fs.lines? q ∨
        s.limit ≠ 0 ∧ a.reached < now ∧ s.Owns q ∧ fs'.lines? q = none) ∧
      (b.opened = b.reached → (b = a → fs.lines? (s.path a.opened) ≠ none) →
        fs'.lines? (s.path b.opened) ≠ none) := by
  obtain rfl := t.series
  intro b
  have free (q : Hour) : Appender.freeIn a.series fs q = Appender.freeIn a.series fs₀ q := by
    rw [Appender.freeIn, dirs, Appender.freeIn]
  have thins := a.series.thins_prune fs
  have thin (h : Hour) := (thins.lines (a.series.path h)).imp_right fun r => And.intro r.1 r.2.2
  rw [← dirs] at parent
  obtain ⟨same, rolled⟩ | ⟨later, blocked, rolled⟩ | ⟨later, opens, rolled⟩ :=
    Appender.roll_cases parent
  · have stays : b = a := if_neg same
    refine ⟨fs.append (a.series.path a.opened) l, ?_, ?_, ?_, ?_, ?_⟩
    · rw [Appender.write, rolled, stays]
    · exact fun q => (Files.isDir_append ..).trans (dirs q)
    · rw [stays]
      exact t.append l
    · intro q other
      rw [stays] at other
      exact Or.inl (by rw [Files.lines?_append]; simp [other])
    · intro _ there
      rw [stays, Files.lines?_append]
      simpa using there stays
  · have stays : b = { a with reached := now } := by
      rw [free] at blocked
      simp [b, Appender.next, later, blocked]
    refine ⟨(a.series.prune fs).append (a.series.path a.opened) l, ?_, ?_, ?_, ?_, ?_⟩
    · rw [Appender.write, rolled, stays]
    · exact fun q => (Files.isDir_append ..).trans ((thins.dirs q).trans (dirs q))
    · rw [stays]
      exact ((t.thin thin).reach later).append l
    · intro q other
      rw [stays] at other
      rw [Files.lines?_append]
      obtain same | ⟨limited, mine, gone⟩ := thins.lines q
      · exact Or.inl (by simp [other, same])
      · exact Or.inr ⟨limited, later, mine, by simp [gone]⟩
    · rw [stays]
      rintro (current : a.opened = now)
      exact absurd later (current ▸ t.behind)
  · have turns : b = { a with reached := now, opened := now } := by
      rw [free] at opens
      simp [b, Appender.next, later, opens]
    have clear : (a.series.prune fs).isDir (a.series.path now) = false := by
      rw [thins.dirs]
      simpa [Appender.freeIn] using opens
    refine ⟨((a.series.prune fs).add (a.series.path now) (.file #[])).append
      (a.series.path now) l, ?_, ?_, ?_, ?_, ?_⟩
    · rw [Appender.write, rolled, turns]
    · intro q
      rw [Files.isDir_append, Files.isDir_add_file, thins.dirs, dirs]
    · rw [turns]
      exact (t.thin thin).opens later clear l
    · intro q other
      rw [turns] at other
      rw [Files.lines?_append, Files.lines?_add_file clear]
      obtain same | ⟨limited, mine, gone⟩ := thins.lines q
      · exact Or.inl (by simp [other, same])
      · exact Or.inr ⟨limited, later, mine, by simp [other, gone]⟩
    · rw [turns]
      rintro - -
      rw [Files.lines?_append, Files.lines?_add_file clear]
      simp

end Tracks

namespace Appender

/-- No line lets an appender go back, and it is not behind the line then. -/
theorem reached_next (free : Hour → Bool) (now : Hour) (a : Appender) :
    ((a.next free now).reached = a.reached ∧ ¬ a.reached < now) ∨
      (a.next free now).reached = now ∧ a.reached < now := by
  unfold next
  split
  next later => exact Or.inr ⟨rfl, later⟩
  next same => exact Or.inl ⟨rfl, same⟩

end Appender

/-- Later lines are in later files. -/
theorem pairwise_filed (free : Hour → Bool) {a : Appender} (behind : ¬ a.reached < a.opened)
    (xs : List (Hour × Line)) :
    (filed free a xs).Pairwise (fun x y => ¬ y.1 < x.1) ∧
      ∀ x ∈ filed free a xs, ¬ x.1 < a.opened := by
  induction xs generalizing a with
  | nil => exact ⟨.nil, by simp [filed]⟩
  | cons x xs ih =>
    have turns : ¬ (a.next free x.1).reached < (a.next free x.1).opened ∧
        ¬ (a.next free x.1).opened < a.opened := by
      unfold Appender.next
      split
      next later =>
        cases free x.1 with
        | true => exact ⟨x.1.lt_irrefl, Hour.not_lt_of_not_lt_of_lt behind later⟩
        | false => exact ⟨Hour.not_lt_of_not_lt_of_lt behind later, a.opened.lt_irrefl⟩
      next => exact ⟨behind, a.opened.lt_irrefl⟩
    obtain ⟨sorted, after⟩ := ih turns.1
    refine ⟨List.pairwise_cons.2 ⟨after, sorted⟩, fun y mem => ?_⟩
    obtain rfl | mem := List.mem_cons.1 mem
    · exact turns.2
    · exact fun before => after y mem (Hour.lt_of_lt_of_not_lt before turns.2)

/-- Lines that come in no later hour all go to the file in use. -/
theorem filed_of_not_lt (free : Hour → Bool) {a : Appender} {xs : List (Hour × Line)}
    (still : ∀ x ∈ xs, ¬ a.reached < x.1) :
    filed free a xs = xs.map (fun x => (a.opened, x.2)) ∧ turned free a xs = a := by
  induction xs with
  | nil => exact ⟨rfl, rfl⟩
  | cons x xs ih =>
    have stays : a.next free x.1 = a := if_neg (still x (List.mem_cons_self ..))
    obtain ⟨placed, turned⟩ := ih fun y mem => still y (List.mem_cons_of_mem _ mem)
    refine ⟨?_, ?_⟩
    · rw [filed, stays, placed, List.map_cons]
    · rw [Log.turned, List.foldl_cons, stays]
      exact turned

namespace Series

/-- The lines that came in at some hours, since the tree was `fs₀` and the file of the hour `start`
was in use, each with the hour of the file that took it. -/
def placed (s : Series) (start : Hour) (fs₀ : Files) (lines : List (Hour × Line)) :
    List (Hour × Line) :=
  filed (Appender.freeIn s fs₀) ⟨s, start, start⟩ lines

/-- The appender after them. -/
def appender (s : Series) (start : Hour) (fs₀ : Files) (lines : List (Hour × Line)) : Appender :=
  turned (Appender.freeIn s fs₀) ⟨s, start, start⟩ lines

/-- The files of a series hold the lines that came in at some hours. -/
structure Holds (s : Series) (start : Hour) (fs₀ fs : Files) (lines : List (Hour × Line)) :
    Prop where
  /-- Taken in the order of their hours, the files have got all the lines, in order. -/
  order : (s.placed start fs₀ lines).map Prod.snd = lines.map Prod.snd ∧
    (s.placed start fs₀ lines).Pairwise fun x y => ¬ y.1 < x.1
  /-- Each file has its old lines, then those that it took, unless it was removed. -/
  each : ∀ h, Grown s.limit (h ≠ start) (fs₀.lines? (s.path h))
    (ofHour h (s.placed start fs₀ lines)) (fs.lines? (s.path h))

/-- A file that was not there at first, and is there now, has the lines that it took and no
others. -/
theorem Holds.eq_of_new {s : Series} {start h : Hour} {fs₀ fs : Files} {lines : List (Hour × Line)}
    (holds : s.Holds start fs₀ fs lines) (new : fs₀.lines? (s.path h) = none)
    (there : fs.lines? (s.path h) ≠ none) :
    fs.lines? (s.path h) = some (ofHour h (s.placed start fs₀ lines)) := by
  obtain ⟨ls, found⟩ := Option.ne_none_iff_exists'.1 there
  have grown := holds.each h
  rw [new, found] at grown
  rw [found]
  cases grown with
  | there => rfl
  | remade => rfl

end Series

/-! ### Both appenders of a program -/

/-- The appender for everything and the one for errors, with the files that they write. -/
structure Archive where
  /-- The one for everything. -/
  all : Appender
  /-- The one for errors. -/
  errors : Appender
  /-- The files. -/
  files : Files

/-- An event that comes in an hour: its line, and the line for the errors if it is one. -/
structure Delivery where
  /-- The hour. -/
  hour : Hour
  /-- The line. -/
  line : Line
  /-- The line for the errors. -/
  severe : Option Line

namespace Archive

/-- Writes the lines of an event. -/
def take (x : Archive) (d : Delivery) : Archive :=
  let (all, files) := x.all.write d.hour d.line x.files
  match d.severe with
  | none => ⟨all, x.errors, files⟩
  | some l =>
    let (errors, files) := x.errors.write d.hour l files
    ⟨all, errors, files⟩

/-- The lines for everything. -/
def lines (ds : List Delivery) : List (Hour × Line) := ds.map fun d => (d.hour, d.line)

/-- The lines for the errors. -/
def severe (ds : List Delivery) : List (Hour × Line) :=
  ds.filterMap fun d => d.severe.map (d.hour, ·)

/-- The two series of a program do not get in each other's way, and their directories are there. -/
structure Apart (all errors : Series) (fs₀ : Files) : Prop where
  /-- They have the same limit. -/
  limit : errors.limit = all.limit
  /-- They have different files. -/
  paths : ∀ h h', all.path h ≠ errors.path h'
  /-- Those with everything are none of the other owner's. -/
  spared : ∀ h, ¬ errors.Owns (all.path h)
  /-- The directory for everything is there. -/
  allParent : ∀ h, fs₀.isDir (all.path h).dropLast = true
  /-- The directory for errors is there. -/
  errorsParent : ∀ h, fs₀.isDir (errors.path h).dropLast = true

/-- The files hold the lines `got` and, those for errors, the lines `gotErrors`. -/
structure Sound (all errors : Series) (start : Hour) (fs₀ : Files)
    (got gotErrors : Hour → List Line) (x : Archive) : Prop where
  /-- No directory comes or goes. -/
  dirs : ∀ q, x.files.isDir q = fs₀.isDir q
  /-- What the files with everything hold. -/
  tracks : Tracks all start fs₀ got x.all x.files
  /-- What the files with errors hold. -/
  tracksErrors : Tracks errors start fs₀ gotErrors x.errors x.files
  /-- Each error was first a line like any other one. -/
  behind : ¬ x.all.reached < x.errors.reached
  /-- The file for everything is there if it is the one of the hour that was reached. -/
  allThere : x.all.opened = x.all.reached → x.files.lines? (all.path x.all.opened) ≠ none
  /-- So is the file for errors, as long as no newer one was opened for everything. -/
  errorsThere : x.errors.opened = x.errors.reached → x.errors.reached = x.all.reached →
    x.files.lines? (errors.path x.errors.opened) ≠ none
  /-- Other files do not change, but may be removed if the owner of a series takes them for its
  own. -/
  others : ∀ q, (∀ h, q ≠ all.path h ∧ q ≠ errors.path h) → x.files.lines? q = fs₀.lines? q ∨
    all.limit ≠ 0 ∧ (all.Owns q ∨ errors.Owns q) ∧ x.files.lines? q = none

variable {all errors : Series} {start : Hour} {fs₀ : Files} {got gotErrors : Hour → List Line}
  {x : Archive}

/-- Removing further files that an owner takes for its own. -/
theorem others_thin {lines lines' : Option (List Line)} {old : Option (List Line)}
    {limited mine : Prop} (h : lines = old ∨ limited ∧ mine ∧ lines = none)
    (le : lines' = lines ∨ limited ∧ mine ∧ lines' = none) :
    lines' = old ∨ limited ∧ mine ∧ lines' = none := by
  obtain rfl | gone := le
  · exact h
  · exact Or.inr gone

/-- The line for everything. -/
theorem Sound.takeLine (apart : Apart all errors fs₀)
    (x₀ : Sound all errors start fs₀ got gotErrors x) (now : Hour) (l : Line) :
    let b := x.all.next (Appender.freeIn all fs₀) now
    ∃ fs', x.all.write now l x.files = (b, fs') ∧
      Sound all errors start fs₀ (fun h => got h ++ ofHour h [(b.opened, l)]) gotErrors
        ⟨b, x.errors, fs'⟩ := by
  intro b
  obtain ⟨fs', wrote, dirs, tracks, frame, there⟩ :=
    x₀.tracks.write x₀.dirs (apart.allParent now) l
  refine ⟨fs', wrote, dirs, tracks, ?_, ?_, fun current => there current fun same => ?_, ?_, ?_⟩
  · refine x₀.tracksErrors.thin fun h => (frame _ (apart.paths _ _).symm).imp_right fun gone => ?_
    exact ⟨apart.limit ▸ gone.1, gone.2.2.2⟩
  · show ¬ b.reached < x.errors.reached
    obtain ⟨same, -⟩ | ⟨here, later⟩ := x.all.reached_next (Appender.freeIn all fs₀) now
    · rw [same]
      exact x₀.behind
    · rw [here]
      exact fun back => x₀.behind (Hour.lt_trans later back)
  · exact x₀.allThere (same ▸ current)
  · intro (opened : x.errors.opened = x.errors.reached) (level : x.errors.reached = b.reached)
    obtain ⟨same, stays⟩ | ⟨here, later⟩ := x.all.reached_next (Appender.freeIn all fs₀) now
    · have kept := frame (errors.path x.errors.opened) (apart.paths _ _).symm
      obtain kept | ⟨-, later, -⟩ := kept
      · show fs'.lines? _ ≠ none
        rw [kept]
        exact x₀.errorsThere opened (level.trans same)
      · exact absurd later stays
    · -- The errors would have gone on to this hour before.
      rw [here] at level
      exact absurd (level ▸ later) x₀.behind
  · intro q other
    refine others_thin (x₀.others q other) ((frame q (other _).1).imp_right fun gone => ?_)
    exact ⟨gone.1, Or.inl gone.2.2.1, gone.2.2.2⟩

/-- The line for the errors, after that for everything. -/
theorem Sound.takeSevere (apart : Apart all errors fs₀)
    (x₀ : Sound all errors start fs₀ got gotErrors x) {now : Hour} (after : ¬ x.all.reached < now)
    (l : Line) :
    let b := x.errors.next (Appender.freeIn errors fs₀) now
    ∃ fs', x.errors.write now l x.files = (b, fs') ∧
      Sound all errors start fs₀ got (fun h => gotErrors h ++ ofHour h [(b.opened, l)])
        ⟨x.all, b, fs'⟩ := by
  intro b
  obtain ⟨fs', wrote, dirs, tracks, frame, there⟩ :=
    x₀.tracksErrors.write x₀.dirs (apart.errorsParent now) l
  have same (h : Hour) : fs'.lines? (all.path h) = x.files.lines? (all.path h) := by
    obtain same | ⟨-, -, mine, -⟩ := frame _ (apart.paths h _)
    · exact same
    · exact absurd mine (apart.spared h)
  refine ⟨fs', wrote, dirs, x₀.tracks.thin fun h => Or.inl (same h), tracks, ?_, fun current => ?_,
    fun current level => there current fun unmoved => ?_, ?_⟩
  · show ¬ x.all.reached < b.reached
    obtain ⟨same, -⟩ | ⟨here, -⟩ := x.errors.reached_next (Appender.freeIn errors fs₀) now
    · rw [same]
      exact x₀.behind
    · rw [here]
      exact after
  · show fs'.lines? _ ≠ none
    rw [same]
    exact x₀.allThere current
  · exact x₀.errorsThere (unmoved ▸ current) (unmoved ▸ level)
  · intro q other
    refine others_thin (x₀.others q other) ((frame q (other _).2).imp_right fun gone => ?_)
    exact ⟨apart.limit ▸ gone.1, Or.inr gone.2.2.1, gone.2.2.2⟩

/-- What one event does. -/
theorem Sound.take (apart : Apart all errors fs₀) (x₀ : Sound all errors start fs₀ got gotErrors x)
    (d : Delivery) :
    let free := Appender.freeIn all fs₀
    let freeErrors := Appender.freeIn errors fs₀
    (x.take d).all = turned free x.all (lines [d]) ∧
      (x.take d).errors = turned freeErrors x.errors (severe [d]) ∧
      Sound all errors start fs₀ (fun h => got h ++ ofHour h (filed free x.all (lines [d])))
        (fun h => gotErrors h ++ ofHour h (filed freeErrors x.errors (severe [d]))) (x.take d) := by
  intro free freeErrors
  obtain ⟨fs, wrote, x₁⟩ := x₀.takeLine apart d.hour d.line
  obtain ⟨hour, line, severe?⟩ := d
  cases severe? with
  | none =>
    have eq : x.take ⟨hour, line, none⟩ = ⟨x.all.next free hour, x.errors, fs⟩ := by
      simp only [Archive.take, wrote]
      rfl
    rw [eq]
    refine ⟨rfl, rfl, ?_⟩
    simpa [lines, severe, filed, ofHour] using x₁
  | some l =>
    have after : ¬ (x.all.next free hour).reached < hour := by
      obtain ⟨same, stays⟩ | ⟨here, -⟩ := x.all.reached_next free hour
      · rwa [same]
      · rw [here]
        exact hour.lt_irrefl
    obtain ⟨fs', wrote', x₂⟩ := x₁.takeSevere apart after l
    have eq : x.take ⟨hour, line, some l⟩ =
        ⟨x.all.next free hour, x.errors.next freeErrors hour, fs'⟩ := by
      simp only [Archive.take, wrote, wrote']
      rfl
    rw [eq]
    exact ⟨rfl, rfl, x₂⟩

/-- The archive after some events. -/
def run (x : Archive) (ds : List Delivery) : Archive := ds.foldl take x

/-- What events do, one after the other. -/
theorem Sound.run (apart : Apart all errors fs₀) (x₀ : Sound all errors start fs₀ got gotErrors x)
    (ds : List Delivery) :
    let free := Appender.freeIn all fs₀
    let freeErrors := Appender.freeIn errors fs₀
    (x.run ds).all = turned free x.all (lines ds) ∧
      (x.run ds).errors = turned freeErrors x.errors (severe ds) ∧
      Sound all errors start fs₀ (fun h => got h ++ ofHour h (filed free x.all (lines ds)))
        (fun h => gotErrors h ++ ofHour h (filed freeErrors x.errors (severe ds))) (x.run ds) := by
  intro free freeErrors
  induction ds generalizing x got gotErrors with
  | nil =>
    have stays : x.run [] = x := rfl
    exact ⟨rfl, rfl, by simpa [stays, lines, severe, filed, ofHour] using x₀⟩
  | cons d ds ih =>
    obtain ⟨all₁, errors₁, x₁⟩ := x₀.take apart d
    obtain ⟨all₂, errors₂, x₂⟩ := ih x₁
    have step : x.run (d :: ds) = (x.take d).run ds := rfl
    have split : lines (d :: ds) = lines [d] ++ lines ds := rfl
    have splitErrors : severe (d :: ds) = severe [d] ++ severe ds :=
      List.filterMap_append (l := [d]) ..
    rw [all₁] at all₂ x₂
    rw [errors₁] at errors₂ x₂
    rw [step, split, splitErrors]
    refine ⟨all₂.trans (turned_append ..).symm, errors₂.trans (turned_append ..).symm, ?_⟩
    simpa only [filed_append, ofHour_append, ← List.append_assoc] using x₂

/-- The archive after an initial one, in which both files of the hour are there. -/
theorem run_initial (apart : Apart all errors fs₀) (there : fs₀.lines? (all.path start) ≠ none)
    (there' : fs₀.lines? (errors.path start) ≠ none) (ds : List Delivery) :
    let x := (Archive.mk ⟨all, start, start⟩ ⟨errors, start, start⟩ fs₀).run ds
    x.all = all.appender start fs₀ (lines ds) ∧ x.errors = errors.appender start fs₀ (severe ds) ∧
      Sound all errors start fs₀ (fun h => ofHour h (all.placed start fs₀ (lines ds)))
        (fun h => ofHour h (errors.placed start fs₀ (severe ds))) x := by
  have initial : Sound all errors start fs₀ (fun _ => []) (fun _ => [])
      ⟨⟨all, start, start⟩, ⟨errors, start, start⟩, fs₀⟩ :=
    ⟨fun _ => rfl, .initial there, .initial there', start.lt_irrefl, fun _ => there,
      fun _ _ => there', fun _ _ => Or.inl rfl⟩
  obtain ⟨turned, turned', sound⟩ := initial.run apart ds
  refine ⟨turned, turned', ?_⟩
  simpa only [List.nil_append, Series.placed] using sound

/-- The files hold what was delivered. -/
theorem Sound.holds {ds : List Delivery}
    (sound : Sound all errors start fs₀ (fun h => ofHour h (all.placed start fs₀ (lines ds)))
      (fun h => ofHour h (errors.placed start fs₀ (severe ds))) x) :
    all.Holds start fs₀ x.files (lines ds) ∧ errors.Holds start fs₀ x.files (severe ds) :=
  ⟨⟨⟨map_snd_filed .., (pairwise_filed _ start.lt_irrefl _).1⟩, sound.tracks.grown⟩,
    ⟨map_snd_filed .., (pairwise_filed _ start.lt_irrefl _).1⟩, sound.tracksErrors.grown⟩

/-- As long as no later hour has come, both files of the first hour have everything. -/
theorem Sound.within_hour {ds : List Delivery} {old failed : List Line}
    (there : fs₀.lines? (all.path start) = some old)
    (there' : fs₀.lines? (errors.path start) = some failed)
    (turned : x.all = all.appender start fs₀ (lines ds))
    (turned' : x.errors = errors.appender start fs₀ (severe ds))
    (sound : Sound all errors start fs₀ (fun h => ofHour h (all.placed start fs₀ (lines ds)))
      (fun h => ofHour h (errors.placed start fs₀ (severe ds))) x)
    (still : ∀ d ∈ ds, ¬ start < d.hour) :
    x.files.lines? (all.path start) = some (old ++ (lines ds).map Prod.snd) ∧
      x.files.lines? (errors.path start) = some (failed ++ (severe ds).map Prod.snd) := by
  have whole (xs : List (Hour × Line)) :
      ofHour start (xs.map fun x => (start, x.2)) = xs.map Prod.snd := by
    rw [ofHour, List.filter_eq_self.2, List.map_map]
    · rfl
    · intro y mem
      obtain ⟨x, -, rfl⟩ := List.mem_map.1 mem
      exact decide_eq_true rfl
  have early : ∀ y ∈ lines ds, ¬ start < y.1 := fun y mem => by
    obtain ⟨d, came, rfl⟩ := List.mem_map.1 mem
    exact still d came
  have early' : ∀ y ∈ severe ds, ¬ start < y.1 := fun y mem => by
    obtain ⟨d, came, faulty⟩ := List.mem_filterMap.1 mem
    obtain ⟨l, -, rfl⟩ := Option.map_eq_some_iff.1 faulty
    exact still d came
  obtain ⟨placed, stays⟩ :=
    filed_of_not_lt (Appender.freeIn all fs₀) (a := ⟨all, start, start⟩) early
  obtain ⟨placed', stays'⟩ :=
    filed_of_not_lt (Appender.freeIn errors fs₀) (a := ⟨errors, start, start⟩) early'
  rw [Series.appender, stays] at turned
  rw [Series.appender, stays'] at turned'
  have now : x.files.lines? (all.path start) ≠ none := by
    simpa only [turned] using sound.allThere (by rw [turned])
  have now' : x.files.lines? (errors.path start) ≠ none := by
    simpa only [turned'] using sound.errorsThere (by rw [turned']) (by rw [turned, turned'])
  constructor
  · rw [sound.tracks.eq_of_there there now, Series.placed, placed, whole]
  · rw [sound.tracksErrors.eq_of_there there' now', Series.placed, placed', whole]

end Archive

end QueueLedger.Log
