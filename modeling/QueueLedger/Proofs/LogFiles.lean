import QueueLedger.Log.Bootstrap
/-!
# The log files of a program

Setting up opens a file for everything and one for errors only, and opens new ones with the hour.
Their names differ in the owner and the hour. Opening one must not remove or change another one that
is still written to, whatever the owner is called.

## Proof shape

Nothing but `Files.prune` removes anything, and it removes only files of an owner, never directories
(`Files.node?_prune`). So where a directory is found once, it is found for ever, and whether a file
of a series can be opened is settled when the first one is (`Files.openIn_eq`). What a name begins
with is a matter of the last part of the path: `FilePath.exists_ofText_append` cuts it off, and the
hour has digits where the other owner's name goes on (`Hour.text_spec`).
-/

namespace QueueLedger.Log

namespace Files

variable {fs fs' : Files} {p q : FilePath}

/-- The lines of the file at a path, if there is one. -/
def lines? (fs : Files) (p : FilePath) : Option (List Line) :=
  match fs.node? p with
  | some (.file lines) => some lines.toList
  | _ => none

theorem isDir_iff : fs.isDir p = true ↔ fs.node? p = some .dir := by
  unfold isDir
  split
  next found => simp [found]
  next other => simpa using other

/-- Trees that have the same at a path have the same lines there, and the same directories. -/
theorem lines?_congr (same : fs'.node? p = fs.node? p) : fs'.lines? p = fs.lines? p := by
  rw [lines?, same, lines?]

theorem isDir_congr (same : fs'.node? p = fs.node? p) : fs'.isDir p = fs.isDir p := by
  rw [isDir, same, isDir]

/-! ### Entries -/

/-- What is found at a path is its entry. -/
theorem lookup_eq_some_iff {n : Node} :
    fs.entries.lookup p = some n ↔ (p, n) ∈ fs.entries := by
  obtain ⟨entries, distinct⟩ := fs
  show entries.lookup p = some n ↔ (p, n) ∈ entries
  induction entries with
  | nil => simp
  | cons e entries ih =>
    obtain ⟨q, m⟩ := e
    rw [List.map_cons, List.nodup_cons] at distinct
    by_cases same : p = q
    · subst same
      have once (k : Node) : (p, k) ∉ entries := fun mem =>
        distinct.1 (List.mem_map.2 ⟨(p, k), mem, rfl⟩)
      simp [once, eq_comm]
    · have other : (p == q) = false := beq_false_of_ne same
      rw [List.lookup_cons, other]
      simpa [same] using ih distinct.2

theorem lookup_eq_none_iff : fs.entries.lookup p = none ↔ p ∉ fs.entries.map Prod.fst := by
  rw [List.lookup_eq_none_iff]
  simp only [List.mem_map, Prod.exists, exists_and_right, exists_eq_right, not_exists, bne_iff_ne,
    Prod.forall]
  exact ⟨fun h n mem => h p n mem rfl, fun h r n mem same => h n (same ▸ mem)⟩

/-- A new entry hides nothing. -/
theorem node?_add (p : FilePath) (n : Node) (fs : Files) (q : FilePath) :
    (fs.add p n).node? q = (fs.node? q).or (if q = p then some n else none) := by
  by_cases root : q = []
  · simp [node?, root]
  rw [node?, if_neg root, node?, if_neg root, add]
  split
  next new =>
    rw [List.lookup_append, List.lookup_cons, List.lookup_nil]
    by_cases same : q = p
    · simp [same]
    · rw [beq_false_of_ne same, if_neg same]
  next old =>
    by_cases same : q = p
    · rw [← lookup_eq_none_iff, ← same] at old
      obtain ⟨m, found⟩ := Option.ne_none_iff_exists'.1 old
      rw [found, Option.some_or]
    · rw [if_neg same, Option.or_none]

/-- A new file is no directory, and it is empty if there was none. -/
theorem isDir_add_file (p : FilePath) (fs : Files) (q : FilePath) :
    (fs.add p (.file #[])).isDir q = fs.isDir q := by
  rw [isDir, node?_add, isDir]
  cases fs.node? q with
  | none => by_cases here : q = p <;> simp [here]
  | some n => rw [Option.some_or]

theorem lines?_add_file (free : fs.isDir p = false) :
    (fs.add p (.file #[])).lines? q =
      if q = p then some ((fs.lines? q).getD []) else fs.lines? q := by
  rw [lines?, node?_add, lines?]
  by_cases here : q = p
  · subst here
    cases found : fs.node? q with
    | none => simp
    | some n =>
      cases n with
      | dir => simp [isDir, found] at free
      | file lines => simp
  · simp [here]

/-! ### Opening files -/

/-- What is found in one tree is found in the other. -/
def Keeps (fs fs' : Files) : Prop := ∀ q n, fs.node? q = some n → fs'.node? q = some n

theorem Keeps.refl (fs : Files) : Keeps fs fs := fun _ _ found => found

theorem Keeps.trans {fs'' : Files} (h : Keeps fs fs') (h' : Keeps fs' fs'') : Keeps fs fs'' :=
  fun q n found => h' q n (h q n found)

theorem keeps_add (p : FilePath) (n : Node) (fs : Files) : Keeps fs (fs.add p n) := by
  intro q m found
  rw [node?_add, found, Option.some_or]

/-- Making directories adds directories only. -/
theorem makeDirsFrom_spec {done : FilePath} (h : makeDirsFrom done p fs = some fs') :
    Keeps fs fs' ∧ ∀ q, fs'.lines? q = fs.lines? q := by
  induction p generalizing done fs with
  | nil =>
    cases h
    exact ⟨Keeps.refl _, fun q => rfl⟩
  | cons part rest ih =>
    rw [makeDirsFrom] at h
    split at h
    next => exact ih h
    next => cases h
    next missing =>
      obtain ⟨keeps, lines⟩ := ih h
      refine ⟨(keeps_add _ _ fs).trans keeps, fun q => (lines q).trans ?_⟩
      rw [lines?, lines?, node?_add]
      by_cases here : q = done ++ [part]
      · simp [here, missing]
      · simp [here]

/-- Below a directory, a file can be opened if no directory is at its path. It is made if it is not
there. -/
theorem open?_eq (parent : fs.isDir p.dropLast = true) :
    fs.open? p = if fs.isDir p then none else some (fs.add p (.file #[])) := by
  rw [open?, if_pos parent]
  cases found : fs.node? p with
  | none => rw [if_neg (by simp [isDir, found])]
  | some n =>
    cases n with
    | dir => rw [if_pos (isDir_iff.2 found)]
    | file lines =>
      have known : p ∈ fs.entries.map Prod.fst := by
        unfold node? at found
        split at found
        next => cases found
        next => exact List.mem_map.2 ⟨_, lookup_eq_some_iff.1 found, rfl⟩
      rw [if_neg (by simp [isDir, found]), add, dif_neg (not_not_intro known)]

/-- So it is with the directories above it made first, which changes nothing then. -/
theorem openIn_eq (parent : fs.isDir p.dropLast = true) :
    fs.openIn p = if fs.isDir p then none else some (fs.add p (.file #[])) := by
  unfold openIn
  rw [open?_eq parent]
  cases blocked : fs.isDir p with
  | false => rfl
  | true =>
    show (fs.makeDirs p.dropLast).bind (open? p) = none
    cases made : fs.makeDirs p.dropLast with
    | none => rfl
    | some fs' =>
      have keeps := (makeDirsFrom_spec made).1
      have below : fs'.isDir p.dropLast = true := isDir_iff.2 (keeps _ _ (isDir_iff.1 parent))
      rw [Option.bind_some, open?_eq below, if_pos]
      exact isDir_iff.2 (keeps _ _ (isDir_iff.1 blocked))

/-- What is found after a file was opened: what was there before, and the file. -/
theorem openIn_spec (h : fs.openIn p = some fs') :
    Keeps fs fs' ∧ fs'.isDir p.dropLast = true ∧
      ∀ q, fs'.lines? q = if q = p then some ((fs.lines? q).getD []) else fs.lines? q := by
  -- Directories may have been made first: what is opened is opened in some tree with the same
  -- files.
  have opened : ∃ gs, gs.open? p = some fs' ∧ Keeps fs gs ∧ ∀ q, gs.lines? q = fs.lines? q := by
    unfold openIn at h
    split at h
    next opened =>
      cases h
      exact ⟨fs, opened, Keeps.refl fs, fun q => rfl⟩
    next =>
      obtain ⟨gs, made, opened⟩ := Option.bind_eq_some_iff.1 h
      exact ⟨gs, opened, makeDirsFrom_spec made⟩
  obtain ⟨gs, opened, keeps, lines⟩ := opened
  have parent : gs.isDir p.dropLast = true := by
    unfold open? at opened
    split at opened
    next parent => exact parent
    next => cases opened
  rw [open?_eq parent] at opened
  split at opened
  next => cases opened
  next free =>
    cases opened
    refine ⟨keeps.trans (keeps_add _ _ gs), isDir_iff.2 (keeps_add _ _ gs _ _ (isDir_iff.1 parent)),
      fun q => ?_⟩
    rw [← lines, lines?_add_file (Bool.eq_false_iff.2 free)]

/-! ### Removing old files -/

/-- The files of an owner are files in the directory whose names belong to the owner. -/
theorem of_mem_ownedFiles {dir : FilePath} {owner : String} (mem : q ∈ ownedFiles dir owner fs) :
    (∃ lines, fs.node? q = some (.file lines)) ∧ q.dropLast = dir ∧
      q.getLast?.any (owned owner) = true := by
  obtain ⟨⟨r, n⟩, entry, h⟩ := List.mem_filterMap.1 mem
  cases n with
  | dir => cases h
  | file lines =>
    dsimp only at h
    split at h
    next mine =>
      cases h
      refine ⟨⟨lines, ?_⟩, mine⟩
      rw [node?, if_neg ?_, lookup_eq_some_iff]
      · exact entry
      · rintro rfl
        exact absurd mine.2 (by simp)
    next => cases h

theorem node?_restrict (keep : FilePath → Bool) (q : FilePath) (proper : q ≠ []) :
    (fs.restrict keep).node? q = if keep q then fs.node? q else none := by
  have entry (n : Node) : (fs.restrict keep).entries.lookup q = some n ↔
      keep q = true ∧ fs.entries.lookup q = some n := by
    rw [lookup_eq_some_iff, lookup_eq_some_iff, restrict, List.mem_filter, and_comm]
  rw [node?, if_neg proper, node?, if_neg proper]
  refine Option.ext fun n => (entry n).trans ?_
  cases keep q <;> simp

/-- Making room for a file of an owner leaves everything as it is, but for files of the owner. -/
theorem node?_prune (dir : FilePath) (owner : String) (limit : Nat) (fs : Files) (q : FilePath) :
    (fs.prune dir owner limit).node? q = fs.node? q ∨
      limit ≠ 0 ∧ (∃ lines, fs.node? q = some (.file lines)) ∧ q.dropLast = dir ∧
        q.getLast?.any (owned owner) = true ∧ (fs.prune dir owner limit).node? q = none := by
  unfold prune
  dsimp only
  split
  next => exact Or.inl rfl
  next full =>
    by_cases root : q = []
    · exact Or.inl (by rw [root]; rfl)
    rw [node?_restrict _ _ root]
    split
    next => exact Or.inl rfl
    next old =>
      have mem : q ∈ ownedFiles dir owner fs := by
        simp only [Bool.not_eq_true', Bool.not_eq_false, List.contains_eq_mem, decide_eq_true_eq]
          at old
        exact List.mem_of_mem_take old
      obtain ⟨file, here, mine⟩ := of_mem_ownedFiles mem
      exact Or.inr ⟨fun none => full (Or.inl none), file, here, mine, rfl⟩

/-! ### Writing -/

/-- A line that is appended to a file is its last one, and nothing else changes. -/
theorem node?_append (l : Line) (fs : Files) (q : FilePath) :
    (fs.append p l).node? q = (fs.node? q).map fun n => if q = p then n.push l else n := by
  have entry (es : List (FilePath × Node)) :
      (es.map fun e => (e.1, if e.1 = p then e.2.push l else e.2)).lookup q =
        (es.lookup q).map fun n => if q = p then n.push l else n := by
    induction es with
    | nil => rfl
    | cons e es ih =>
      obtain ⟨r, n⟩ := e
      by_cases same : q = r
      · simp [same]
      · have other : (q == r) = false := beq_false_of_ne same
        simpa [List.lookup_cons, other] using ih
  unfold node?
  split
  next root => split <;> rfl
  next => exact entry fs.entries

theorem lines?_append (l : Line) (fs : Files) (q : FilePath) :
    (fs.append p l).lines? q = (fs.lines? q).map (· ++ if q = p then [l] else []) := by
  rw [lines?, node?_append, lines?]
  cases fs.node? q with
  | none => rfl
  | some n =>
    cases n with
    | dir => by_cases here : q = p <;> simp [here, Node.push]
    | file lines => by_cases here : q = p <;> simp [here, Node.push]

theorem isDir_append (l : Line) (fs : Files) (q : FilePath) :
    (fs.append p l).isDir q = fs.isDir q := by
  rw [isDir, node?_append, isDir]
  cases fs.node? q with
  | none => rfl
  | some n =>
    cases n with
    | dir => by_cases here : q = p <;> simp [here, Node.push]
    | file lines => by_cases here : q = p <;> simp [here, Node.push]

end Files

/-! ### Names of files -/

theorem digits_of_decimal? {cs : List Char} {n : Nat} (h : Text.decimal? cs = some n) :
    cs ≠ [] ∧ ∀ c ∈ cs, c.isDigit = true := by
  unfold Text.decimal? at h
  split at h
  next digits => exact ⟨digits.1, List.all_eq_true.1 digits.2⟩
  next => cases h

/-- An hour begins with a digit and is made of digits and dashes. -/
theorem Hour.text_spec (h : Hour) :
    (∃ d cs, h.text.toList = d :: cs ∧ d.isDigit = true) ∧
      (∀ c ∈ h.text.toList, c.isDigit = true ∨ c = '-') ∧ 1 < h.text.length := by
  obtain ⟨text, dated⟩ := h
  show (∃ d cs, text.toList = d :: cs ∧ d.isDigit = true) ∧
    (∀ c ∈ text.toList, c.isDigit = true ∨ c = '-') ∧ 1 < text.length
  unfold isHour at dated
  split at dated
  next year month day clock parts =>
    have chars : text.toList =
        year.toList ++ '-' :: (month.toList ++ '-' :: (day.toList ++ '-' :: clock.toList)) := by
      rw [Text.toList_eq_intercalate '-' text, parts]
      simp
    split at dated
    next =>
      split at dated
      next y m d k hy hm hd hk =>
        obtain ⟨some_year, year_digits⟩ := digits_of_decimal? hy
        have month_digits := (digits_of_decimal? hm).2
        have day_digits := (digits_of_decimal? hd).2
        have clock_digits := (digits_of_decimal? hk).2
        obtain ⟨first, rest, cons⟩ := List.exists_cons_of_ne_nil some_year
        refine ⟨⟨first, _, by rw [chars, cons, List.cons_append],
          year_digits first (by simp [cons])⟩,
          fun c hc => ?_, ?_⟩
        · rw [chars] at hc
          simp only [List.mem_append, List.mem_cons] at hc
          grind
        · rw [← String.length_toList, chars]
          simp only [List.length_append, List.length_cons]
          omega
      next => cases dated
    next => cases dated
  next => cases dated

theorem Hour.slash_notMem (h : Hour) : '/' ∉ h.text.toList :=
  fun slash => absurd (h.text_spec.2.1 _ slash) (by decide)

namespace FilePath

/-- A name is a path of one part. -/
theorem ofText_of_notMem {s : String} (name : '/' ∉ s.toList) (long : 1 < s.length) :
    ofText s = [s] := by
  have proper : s ≠ "" ∧ s ≠ "." := by
    constructor
    · rintro rfl
      simp at long
    · rintro rfl
      exact absurd long (by decide)
  rw [ofText, Text.pieces_of_notMem name]
  simp [proper]

/-- What is added to a text that denotes a path is added to its last part. -/
theorem exists_ofText_append (s : String) :
    ∃ (dirs : FilePath) (t : String), '/' ∉ t.toList ∧ (t = s ∨ '/' ∈ s.toList) ∧
      ∀ tail : String, '/' ∉ tail.toList → 1 < tail.length →
        ofText (s ++ tail) = dirs ++ [t ++ tail] := by
  by_cases deep : '/' ∈ s.toList
  · -- The last slash is the first one of the reversed text.
    obtain ⟨after, before, eq, last⟩ := List.eq_append_cons_of_mem (List.mem_reverse.2 deep)
    have cut : s = String.ofList before.reverse ++ String.singleton '/' ++
        String.ofList after.reverse := by
      rw [← String.toList_inj]
      simpa using congrArg List.reverse eq
    refine ⟨ofText (.ofList before.reverse), .ofList after.reverse, by simpa using last,
      Or.inr deep, fun tail name long => ?_⟩
    have part : ofText (String.ofList after.reverse ++ tail) =
        [String.ofList after.reverse ++ tail] :=
      ofText_of_notMem (by simp [last, name]) (by rw [String.length_append]; omega)
    rw [cut, String.append_assoc, ofText, Text.pieces_append, List.filter_append, ← ofText,
      ← ofText, part]
  · refine ⟨[], s, deep, Or.inl rfl, fun tail name long => ?_⟩
    exact ofText_of_notMem (by simp [deep, name]) (by rw [String.length_append]; omega)

end FilePath

namespace Series

/-- What follows the owner in the name of a file. -/
def tail (s : Series) (h : Hour) : String := if s.owner = "" then h.text else "." ++ h.text

theorem fileName_eq (s : Series) (h : Hour) : s.fileName h = s.owner ++ s.tail h := by
  unfold fileName tail
  split
  next nameless => rw [nameless, String.empty_append]
  next => rw [String.append_assoc]

/-- It is no path, and does not go on with a dash. -/
theorem tail_spec (s : Series) (h : Hour) :
    '/' ∉ (s.tail h).toList ∧ 1 < (s.tail h).length ∧ ∀ cs, (s.tail h).toList ≠ '-' :: cs := by
  obtain ⟨⟨d, rest, first, digit⟩, -, long⟩ := h.text_spec
  have name := h.slash_notMem
  unfold tail
  split
  next =>
    refine ⟨name, long, fun cs dash => ?_⟩
    rw [first] at dash
    cases dash
    exact absurd digit (by decide)
  next =>
    refine ⟨by simp [name], ?_, fun cs dash => ?_⟩
    · rw [String.length_append]
      omega
    · simp at dash

theorem tail_injective {s : Series} {h h' : Hour} (same : s.tail h = s.tail h') : h = h' := by
  unfold tail at same
  split at same
  next => exact Hour.ext same
  next => exact Hour.ext (by simpa using same)

/-- The files of a series are in one directory, and the owner's name goes on with the hour in all of
their names. -/
theorem exists_path_eq (s : Series) :
    ∃ (dirs : FilePath) (t : String), '/' ∉ t.toList ∧ (t = s.owner ∨ '/' ∈ s.owner.toList) ∧
      ∀ tail : String, '/' ∉ tail.toList → 1 < tail.length →
        s.dirPath ++ .ofText (s.owner ++ tail) = dirs ++ [t ++ tail] := by
  obtain ⟨dirs, t, part, whole, path⟩ := FilePath.exists_ofText_append s.owner
  refine ⟨s.dirPath ++ dirs, t, part, whole, fun tail name long => ?_⟩
  rw [path tail name long, List.append_assoc]

/-- Different hours have different files, all in one directory. -/
theorem path_spec (s : Series) :
    (∀ h h', s.path h = s.path h' → h = h') ∧
      ∃ parent, ∀ h, (s.path h).dropLast = parent := by
  obtain ⟨dirs, t, -, -, path⟩ := s.exists_path_eq
  have eq (h : Hour) : s.path h = dirs ++ [t ++ s.tail h] := by
    rw [Series.path, fileName_eq, path _ (s.tail_spec h).1 (s.tail_spec h).2.1]
  refine ⟨fun h h' same => ?_, dirs, fun h => by rw [eq, List.dropLast_concat]⟩
  rw [eq, eq] at same
  exact tail_injective (s := s) (by simpa using same)

theorem path_injective {s : Series} {h h' : Hour} (same : s.path h = s.path h') : h = h' :=
  s.path_spec.1 h h' same

end Series

/-! ### Both series of a program -/

namespace Program

theorem errorOwner_ne_empty (app : String) : errorOwner app ≠ "" := by
  intro same
  have length := congrArg String.length same
  rw [errorOwner, String.length_append] at length
  exact absurd length (by simp)

/-- The name of a file with errors only. -/
theorem fileName_errors (app : String) (o : Options) (h : Hour) :
    (series (errorOwner app) o).fileName h = app ++ ("-err." ++ h.text) := by
  have named : (series (errorOwner app) o).owner ≠ "" := errorOwner_ne_empty app
  have mark : ("-err." : String) = "-err" ++ "." := rfl
  rw [Series.fileName, if_neg named, series, errorOwner, mark]
  simp only [String.append_assoc]

/-- The files of the two series are different ones, and those with everything are none of the other
owner's. -/
theorem series_apart (app : String) (o : Options) (h h' : Hour) :
    (series app o).path h ≠ (series (errorOwner app) o).path h' ∧
      ((series app o).path h).getLast?.any (Files.owned (errorOwner app)) = false := by
  obtain ⟨dirs, t, part, whole, path⟩ := (series app o).exists_path_eq
  obtain ⟨name, long, undashed⟩ := (series app o).tail_spec h
  have all : (series app o).path h = dirs ++ [t ++ (series app o).tail h] := by
    rw [Series.path, Series.fileName_eq, path _ name long]
  have errors : (series (errorOwner app) o).path h' = dirs ++ [t ++ ("-err." ++ h'.text)] := by
    have more : 1 < ("-err." ++ h'.text).length := by
      have := h'.text_spec.2.2
      rw [String.length_append]
      omega
    rw [← path ("-err." ++ h'.text) (by simp [h'.slash_notMem]) more, Series.path, fileName_errors]
    rfl
  rw [all]
  constructor
  · rw [errors]
    intro same
    have tails : (series app o).tail h = "-err." ++ h'.text := by simpa using same
    exact undashed ("err.".toList ++ h'.text.toList) (by rw [tails, String.toList_append]; rfl)
  · rw [List.getLast?_concat, Option.any_some, Files.owned,
      if_neg (errorOwner_ne_empty app), Bool.eq_false_iff, ne_eq, List.isPrefixOf_iff_prefix]
    rintro ⟨rest, longer⟩
    rw [errorOwner, String.toList_append, String.toList_append] at longer
    rcases whole with rfl | deep
    · -- After the same beginning one name goes on with a dash.
      rw [series, List.append_assoc, List.append_cancel_left_eq] at longer
      exact undashed ("err".toList ++ rest) longer.symm
    · have slash : '/' ∈ t.toList ++ ((series app o).tail h).toList := by
        rw [← longer]
        simpa [series] using Or.inl deep
      exact absurd slash (by simp [part, name])

end Program

end QueueLedger.Log
