import QueueLedger.ErrorChain
/-!
# What an error chain shows

A reader of an error gets to see three things: the message for the outside, the root cause and the
stack. Each of them comes from a walk (`ErrorChain.follow`, `ErrorChain.numbered`), and the walks
look at different places. The message is withheld by the status of the outermost layer, and is
otherwise made of the text, the transparency and the sources of the deepest one. Everything else in
the chain shows in the stack only (`ErrorChain.shows_ends`).

A wrapped layer hands on its text, its sources and the way down, but not its transparency. So
wrapping is seen in one case: the deepest layer was transparent, and now its text stands in front of
its source (`ErrorChain.wrapping_shows`).
-/

namespace QueueLedger

namespace ErrorChain

variable {α β : Type}

/-! ### Following a chain -/

/-- Following a chain ends at its last element. -/
theorem exists_append_follow (a : α) (below : List α) :
    ∃ above, a :: below = above ++ [follow a below] := by
  induction below generalizing a with
  | nil => exact ⟨[], rfl⟩
  | cons b below ih =>
    obtain ⟨above, h⟩ := ih b
    exact ⟨a :: above, by rw [follow, List.cons_append, ← h]⟩

/-- Where following a chain ends, seen from its list. -/
theorem getLast?_cons_eq_follow (a : α) (below : List α) :
    (a :: below).getLast? = some (follow a below) := by
  obtain ⟨above, ends⟩ := exists_append_follow a below
  rw [ends, List.getLast?_concat]

/-- Changing every element of a chain changes where it ends accordingly. -/
theorem follow_map (f : α → β) (a : α) (below : List α) :
    follow (f a) (below.map f) = f (follow a below) := by
  induction below generalizing a with
  | nil => rfl
  | cons b below ih => exact ih b

end ErrorChain

/-! ### The sources of a layer -/

namespace Layer

variable {l : Layer}

/-- The root of a layer is the last of its sources. -/
theorem root_eq_getLast? (l : Layer) : l.root = l.sources.getLast? := by
  unfold root
  split
  next without => rw [without, List.getLast?_nil]
  next source below sources => rw [sources, ErrorChain.getLast?_cons_eq_follow]

theorem root_eq_none_iff : l.root = none ↔ l.sources = [] := by
  rw [root_eq_getLast?, List.getLast?_eq_none_iff]

theorem report_of_root_eq_none (ends : l.root = none) : l.report = l.text := by
  rw [report, ends]

theorem report_of_root_eq_some {r : String} (ends : l.root = some r) :
    l.report = if l.shown then r else l.text ++ ": " ++ r := by
  rw [report, ends]

/-- A layer is seen as transparent if it is, and nothing holds it. -/
theorem shown_iff : l.shown = true ↔ l.wrap = .bare ∧ l.transparent = true := by
  unfold shown
  split
  next bare => simp [bare]
  next shared => simp [shared]
  next boxed => simp [boxed]

end Layer

namespace ErrorChain

variable {c : ErrorChain}

/-! ### The message -/

theorem output_of_concealed (hidden : c.status.concealed = true) :
    c.output = "Internal error: " ++ c.status.text := by
  rw [output, if_pos hidden]

theorem output_of_not_concealed (told : c.status.concealed = false) : c.output = c.last.report := by
  rw [output, told, if_neg Bool.false_ne_true]

/-! ### The stack -/

theorem numbered_eq (n : Nat) (ts : List String) :
    numbered n ts = (ts.zipIdx n).map fun (t, i) => toString i ++ ": " ++ t := by
  induction ts generalizing n with
  | nil => rfl
  | cons t ts ih => rw [numbered, ih, List.zipIdx_cons, List.map_cons]

theorem stack_eq (c : ErrorChain) :
    c.stack = c.layers.zipIdx.map fun (l, i) => toString i ++ ": " ++ l.text := by
  rw [stack, numbered_eq, List.zipIdx_map, List.map_map]
  rfl

theorem not_mem_toString {a : Char} (ha : a.isDigit = false) (n : Nat) :
    a ∉ (toString n).toList := by
  intro mem
  have digits : toString n = String.ofList (Nat.toDigits 10 n) := rfl
  rw [digits, String.toList_ofList] at mem
  rw [Nat.isDigit_of_mem_toDigits (by decide) (by decide) mem] at ha
  cases ha

/-- If no layer has a line break in its text, then the lines of the stack are its entries. -/
theorem lines_stackText (flat : ∀ l ∈ c.layers, '\n' ∉ l.text.toList) :
    (c.stackText.split '\n').toList.map String.Slice.copy = c.stack := by
  have each : ∀ s ∈ c.stack, '\n' ∉ s.toList := by
    intro s hs
    rw [stack_eq, List.mem_map] at hs
    obtain ⟨⟨l, i⟩, hl, rfl⟩ := hs
    rw [String.toList_append, String.toList_append, List.mem_append, List.mem_append]
    rintro ((number | colon) | text)
    · exact not_mem_toString (by decide) i number
    · exact absurd colon (by decide)
    · exact flat l (List.fst_mem_of_mem_zipIdx hl) text
  have some_entry : c.stack ≠ [] := by
    rw [← List.length_pos_iff, length_stack]
    exact Nat.succ_pos _
  have lines := String.toList_split_intercalate each
  rwa [if_neg some_entry] at lines

/-- **A reader sees the two ends of a chain.** The last layer is the deepest one, and the root cause
is the end of its sources, if it has any. An error whose outermost layer is internal or unclassified
shows that status. Any other one shows the text of the deepest layer if that has no source, the end
of its sources if it has some and is transparent (and not wrapped), and else both. So two chains
whose deepest layers agree in text, transparency, holder and end of sources have the same root
cause, and the same message if their outermost layers have the same status. The stack has an entry
for each layer, outermost first and numbered from zero, and these are its lines unless a text has a
line break. -/
theorem shows_ends (c : ErrorChain) :
    (∃ above, c.layers = above ++ [c.last]) ∧
    (c.rootCause = c.last.sources.getLast? ∧ (c.rootCause = none ↔ c.last.sources = [])) ∧
    ((c.outer.status = .unknown → c.output = "Internal error: unknown") ∧
      (c.outer.status = .internal → c.output = "Internal error: internal")) ∧
    (c.outer.status ≠ .unknown → c.outer.status ≠ .internal →
      (c.last.sources = [] → c.output = c.last.text) ∧
      ∀ r, c.last.sources.getLast? = some r →
        c.output = if c.last.wrap = .bare ∧ c.last.transparent = true then r
          else c.last.text ++ ": " ++ r) ∧
    (∀ d : ErrorChain, d.last.text = c.last.text → d.last.transparent = c.last.transparent →
      d.last.wrap = c.last.wrap → d.last.sources.getLast? = c.last.sources.getLast? →
      d.rootCause = c.rootCause ∧ (d.outer.status = c.outer.status → d.output = c.output)) ∧
    (c.stack = c.layers.zipIdx.map fun (l, i) => toString i ++ ": " ++ l.text) ∧
    ((∀ l ∈ c.layers, '\n' ∉ l.text.toList) →
      (c.stackText.split '\n').toList.map String.Slice.copy = c.stack) := by
  refine ⟨exists_append_follow c.outer c.inner, ⟨Layer.root_eq_getLast? _, Layer.root_eq_none_iff⟩,
    ⟨fun hidden => ?_, fun hidden => ?_⟩, fun known own => ?_,
    fun d text transparent wrap ends => ?_, stack_eq c, lines_stackText⟩
  · rw [output_of_concealed (Status.concealed_iff.2 (Or.inl hidden)), status, hidden]
    rfl
  · rw [output_of_concealed (Status.concealed_iff.2 (Or.inr hidden)), status, hidden]
    rfl
  · have told : c.status.concealed = false :=
      Bool.eq_false_iff.2 fun hidden => (Status.concealed_iff.1 hidden).elim known own
    rw [output_of_not_concealed told]
    refine ⟨fun without => Layer.report_of_root_eq_none (Layer.root_eq_none_iff.2 without),
      fun r ends => ?_⟩
    rw [Layer.report_of_root_eq_some ((Layer.root_eq_getLast? _).trans ends)]
    simp only [Layer.shown_iff]
  · have root : d.last.root = c.last.root := by
      rw [Layer.root_eq_getLast?, Layer.root_eq_getLast?, ends]
    have shown : d.last.shown = c.last.shown := by
      rw [Bool.eq_iff_iff, Layer.shown_iff, Layer.shown_iff, wrap, transparent]
    have report : d.last.report = c.last.report := by
      rw [Layer.report, Layer.report, text, shown, root]
    refine ⟨root, fun code => ?_⟩
    rw [output, output, report, status, status, code]

/-- The layers above the deepest one have sources, flags and a status of their own, and none of them
shows. The deepest layer shows its text unless it is transparent; an internal error shows
neither. -/
theorem shows_ends_of_three :
    let deepest : Layer := { text := "write failed", sources := ["device", "no space left"] }
    let chain (status : Status) (last : Layer) : ErrorChain :=
      ⟨.bare "flush failed" status ["ignored"],
        [⟨"hidden", .internal, true, ["ignored"], .bare⟩, last]⟩
    let plain := chain .storageIo deepest
    let clear := chain .storageIo { deepest with transparent := true }
    let hidden := chain .internal deepest
    plain.output = "write failed: no space left" ∧ clear.output = "no space left" ∧
      hidden.output = "Internal error: internal" ∧ hidden.rootCause = some "no space left" ∧
      (plain.stackText.split '\n').toList.map String.Slice.copy =
        ["0: flush failed", "1: hidden", "2: write failed"] := by
  intro deepest chain plain clear hidden
  obtain ⟨-, -, -, told, -, stack, lines⟩ := shows_ends plain
  obtain ⟨-, -, -, transparent, -⟩ := shows_ends clear
  obtain ⟨-, ⟨root, -⟩, ⟨-, withheld⟩, -⟩ := shows_ends hidden
  refine ⟨(told (by decide) (by decide)).2 _ rfl, (transparent (by decide) (by decide)).2 _ rfl,
    withheld rfl, root, ?_⟩
  rw [lines (by decide), stack]
  decide

end ErrorChain

/-! ### Wrapped layers -/

/-- The layer as itself, without what holds it. -/
def Layer.unwrapped (l : Layer) : Layer := { l with wrap := .bare }

/-- The error with every layer as itself. -/
def ErrorChain.unwrapped (c : ErrorChain) : ErrorChain :=
  ⟨c.outer.unwrapped, c.inner.map Layer.unwrapped⟩

/-- A transparent layer that is wrapped, so that its transparency is not seen. -/
def Layer.Muffled (l : Layer) : Prop := l.wrap ≠ .bare ∧ l.transparent = true

namespace Layer

variable {l : Layer}

@[simp] theorem text_unwrapped (l : Layer) : l.unwrapped.text = l.text := rfl

@[simp] theorem root_unwrapped (l : Layer) : l.unwrapped.root = l.root := rfl

/-- A wrapped layer is never seen as transparent. -/
theorem shown_of_wrapped (wrapped : l.wrap ≠ .bare) : l.shown = false :=
  Bool.eq_false_iff.2 fun shown => wrapped (shown_iff.1 shown).1

/-- As itself, a layer is seen as transparent exactly if it is. -/
@[simp] theorem shown_unwrapped (l : Layer) : l.unwrapped.shown = l.transparent := rfl

/-- Wrapping a layer is seen in its transparency exactly if that was there. -/
theorem shown_unwrapped_iff : l.shown = l.unwrapped.shown ↔ ¬ l.Muffled := by
  rw [shown_unwrapped, Bool.eq_iff_iff, shown_iff, Muffled, and_iff_right_iff_imp, not_and']
  simp only [ne_eq, Decidable.not_not]

/-- What a layer reports changes exactly if its transparency is lost and there is a source to hide
behind. -/
theorem report_unwrapped_iff : l.report = l.unwrapped.report ↔ ¬ (l.Muffled ∧ l.root ≠ none) := by
  cases root : l.root with
  | none =>
    rw [report_of_root_eq_none root, report_of_root_eq_none (l := l.unwrapped) root]
    simp
  | some r =>
    rw [report_of_root_eq_some root, report_of_root_eq_some (l := l.unwrapped) root, text_unwrapped]
    by_cases muffled : l.Muffled
    · -- The text in front makes the report longer than the root alone.
      rw [shown_of_wrapped muffled.1, shown_unwrapped, muffled.2]
      simp [muffled]
    · rw [shown_unwrapped_iff.2 muffled]
      simp [muffled]

end Layer

namespace ErrorChain

variable {c : ErrorChain}

@[simp] theorem last_unwrapped (c : ErrorChain) : c.unwrapped.last = c.last.unwrapped :=
  follow_map Layer.unwrapped c.outer c.inner

@[simp] theorem layers_unwrapped (c : ErrorChain) :
    c.unwrapped.layers = c.layers.map Layer.unwrapped := rfl

@[simp] theorem status_unwrapped (c : ErrorChain) : c.unwrapped.status = c.status := rfl

@[simp] theorem rootCause_unwrapped (c : ErrorChain) : c.unwrapped.rootCause = c.rootCause := by
  rw [rootCause, last_unwrapped, Layer.root_unwrapped, rootCause]

@[simp] theorem stack_unwrapped (c : ErrorChain) : c.unwrapped.stack = c.stack := by
  rw [stack, layers_unwrapped, List.map_map, stack]
  rfl

/-- Wrapping shows in the message exactly if it shows in what the deepest layer reports, and that is
what the message tells. -/
theorem output_unwrapped_iff :
    c.output = c.unwrapped.output ↔
      ¬ (c.status.concealed = false ∧ c.last.Muffled ∧ c.rootCause ≠ none) := by
  cases hidden : c.status.concealed with
  | true =>
    rw [output_of_concealed hidden, output_of_concealed (c := c.unwrapped) hidden, status_unwrapped]
    simp
  | false =>
    rw [output_of_not_concealed hidden, output_of_not_concealed (c := c.unwrapped) hidden,
      last_unwrapped, Layer.report_unwrapped_iff, rootCause]
    simp

/-- **What wrapping layers does to an error.** It shows neither in the stack, nor in the text of the
last layer, nor in the root cause. A layer is seen as transparent exactly if it is and nothing holds
it. So wrapping shows in the transparency of a layer exactly if the layer itself is transparent, and
in the message exactly if this is the deepest layer, it has a source, and the outermost status does
not withhold the message: then the text of the deepest layer stands in front of the root cause,
which would have stood alone. -/
theorem wrapping_shows (c : ErrorChain) :
    c.stackText = c.unwrapped.stackText ∧ c.last.text = c.unwrapped.last.text ∧
    c.rootCause = c.unwrapped.rootCause ∧
    (∀ l ∈ c.layers, (l.shown = true ↔ l.wrap = .bare ∧ l.transparent = true) ∧
      l.unwrapped.shown = l.transparent) ∧
    (c.outer.shown = c.unwrapped.outer.shown ↔
      ¬ (c.outer.wrap ≠ .bare ∧ c.outer.transparent = true)) ∧
    (c.last.shown = c.unwrapped.last.shown ↔
      ¬ (c.last.wrap ≠ .bare ∧ c.last.transparent = true)) ∧
    (c.output = c.unwrapped.output ↔
      ¬ (c.outer.status ≠ .unknown ∧ c.outer.status ≠ .internal ∧ c.last.wrap ≠ .bare ∧
        c.last.transparent = true ∧ c.last.sources ≠ [])) ∧
    (c.outer.status ≠ .unknown → c.outer.status ≠ .internal → c.last.wrap ≠ .bare →
      c.last.transparent = true → ∀ r, c.last.sources.getLast? = some r →
      c.output = c.last.text ++ ": " ++ r ∧ c.unwrapped.output = r) := by
  have told_iff : c.status.concealed = false ↔
      c.outer.status ≠ .unknown ∧ c.outer.status ≠ .internal := by
    rw [Bool.eq_false_iff, ne_eq, Status.concealed_iff, not_or]
    rfl
  refine ⟨?_, ?_, (rootCause_unwrapped c).symm,
    fun l _ => ⟨Layer.shown_iff, Layer.shown_unwrapped l⟩, Layer.shown_unwrapped_iff, ?_, ?_,
    fun known own wrapped transparent r ends => ?_⟩
  · rw [stackText, stackText, stack_unwrapped]
  · rw [last_unwrapped, Layer.text_unwrapped]
  · rw [last_unwrapped]
    exact Layer.shown_unwrapped_iff
  · rw [output_unwrapped_iff, told_iff, Layer.Muffled, rootCause, ne_eq (c.last.root),
      Layer.root_eq_none_iff]
    simp only [and_assoc, ne_eq]
  · have told := told_iff.2 ⟨known, own⟩
    have root : c.last.root = some r := (Layer.root_eq_getLast? _).trans ends
    constructor
    · rw [output_of_not_concealed told, Layer.report_of_root_eq_some root,
        Layer.shown_of_wrapped wrapped, if_neg Bool.false_ne_true]
    · rw [output_of_not_concealed (c := c.unwrapped) told, last_unwrapped,
        Layer.report_of_root_eq_some (l := c.last.unwrapped) root, Layer.shown_unwrapped,
        transparent, if_pos rfl]

/-- A shared transparent layer below a plain one: the last layer is not transparent any more, and
the message names its text. A boxed transparent layer alone is not transparent any more either. -/
theorem wrapping_shows_in_output :
    let c : ErrorChain := ⟨.bare "flush failed" .storageIo [],
      [⟨"write failed", .storageIo, true, ["no space left"], .shared⟩]⟩
    let d : ErrorChain := .single ⟨"write failed", .storageIo, true, ["no space left"], .boxed⟩
    (c.outer.wrap = .bare ∧ c.last.shown = false ∧ c.unwrapped.last.shown = true ∧
      c.output = "write failed: no space left" ∧ c.unwrapped.output = "no space left") ∧
    (d.outer.shown = false ∧ d.unwrapped.outer.shown = true) := by
  decide

end ErrorChain

end QueueLedger
