import QueueLedger.Proofs.PinnedViews
/-!
# The view that a snapshot pins

A snapshot shows the deliveries of a queue twice: its check points are read from the table, and then
a view of the whole store is pinned. Both show the same. While the tables are written by machines
only, every row of the table of check points is the record of a check point under its key
(`Rows.Keyed`), so nothing escapes a scan; and between scan and pin no other machine writes rows of
this queue (`Request.OnBehalf`).

## Proof shape

`Deed.OnBehalf.requests` says for all deeds what they may write, and `Host.requests_after` for a
sequence of them. From it come both what deeds keep (`Host.keyed_after`) and what they leave alone
(`Host.get_after_of_others`).
-/

namespace QueueLedger

/-- Every row of the namespace is the record of a check point, under its key. -/
def Rows.Keyed (space : String) (r : Rows) : Prop :=
  ∀ key value, r.get space key = some value → ∃ c : CheckPoint, key = c.key ∧ value = c.encode

/-- A request is about a row of some delivery of one of some queues, or it is not about the
tables. -/
def Request.OnBehalf (tables : Config) (queues : Set QueueId) (request : Request) : Prop :=
  (request.space ≠ tables.checkPoints ∧ request.space ≠ tables.timers ∧
    request.space ≠ tables.locks) ∨
  ∃ q ∈ queues, request.Serves tables q

/-- The tables are written by machines of some queues only: by an errand, or by a batch that one of
them sends. -/
def Deed.OnBehalf (tables : Config) (queues : Set QueueId) : Deed → Prop
  | write w => ∀ request ∈ w.requests, request.OnBehalf tables queues
  | pin => True
  | release _ => True
  | errand l _ => l.queue ∈ queues ∧
      ∃ threshold, l.config = { tables with rebaseThreshold := threshold }

/-! ### A table of records -/

namespace Rows.Keyed

variable {tables : Config} {queues : Set QueueId} {q : QueueId} {l : Ledger} {r : Rows}
  {requests : List Request}

theorem empty (space : String) : Rows.Keyed space ∅ := by
  intro key value row
  simp [Rows.get] at row

theorem homed (keyed : r.Keyed tables.checkPoints) : r.Homed tables := by
  intro q key value c stem row read
  obtain ⟨c', rfl, rfl⟩ := keyed key value row
  rw [CheckPoint.decode_encode] at read
  cases read
  exact CheckPoint.eq_of_scope_isPrefixOf
    (CheckPoint.scope_isPrefixOf_keyOf c.queue c.operation) stem

/-- What is written on behalf of queues are records under their keys. -/
theorem apply (distinct : tables.distinct) (keyed : r.Keyed tables.checkPoints)
    (each : ∀ request ∈ requests, request.OnBehalf tables queues) :
    (r.apply requests).Keyed tables.checkPoints := by
  induction requests generalizing r with
  | nil => exact keyed
  | cons request requests ih =>
    rw [Rows.apply_cons]
    refine ih ?_ fun request' h => each request' (List.mem_cons_of_mem request h)
    intro key value row
    rw [Rows.get_request] at row
    split at row
    next here =>
      rcases each request List.mem_cons_self with ⟨outside, -⟩ | ⟨q, -, c, -, v, mem, agrees⟩
      · exact absurd (congrArg Address.space here) outside
      · rw [here] at mem
        obtain ⟨rfl, rfl⟩ := Filed.eq_of_mem_rows distinct mem
        exact ⟨c, rfl, agrees value row⟩
    next => exact keyed key value row

/-- The check point rows of each queue are then the records of the check points found in them. -/
theorem filed (keyed : r.Keyed tables.checkPoints) (q : QueueId) :
    Filed tables q r {c | c.queue = q ∧ r.get tables.checkPoints c.key = some c.encode} where
  own _ hc := hc.1
  get_key _ hc := hc.2
  of_get key value stem row := by
    obtain ⟨c, rfl, rfl⟩ := keyed key value row
    have own : c.queue = q := (CheckPoint.eq_of_scope_isPrefixOf
      (CheckPoint.scope_isPrefixOf_keyOf c.queue c.operation) stem)
    exact ⟨c, ⟨own, row⟩, rfl, rfl⟩

/-- A scan finds what the table holds under the leading bytes of the queue, and nothing else. -/
theorem get_iff_of_scanned (keyed : r.Keyed l.config.checkPoints) {cs : List CheckPoint}
    (scan : l.scanned r = .ok cs) (key value : Bytes) :
    ((CheckPoint.scope l.queue).isPrefixOf key = true ∧
        r.get l.config.checkPoints key = some value) ↔
      ∃ c ∈ cs, key = c.key ∧ value = c.encode := by
  have f := keyed.filed l.queue
  constructor
  · rintro ⟨stem, row⟩
    obtain ⟨c, hc, rfl, rfl⟩ := f.of_get key value stem row
    exact ⟨c, (f.mem_of_scanned scan c).2 hc, rfl, rfl⟩
  · rintro ⟨c, hc, rfl, rfl⟩
    have live := (f.mem_of_scanned scan c).1 hc
    refine ⟨?_, f.get_key c live⟩
    rw [← f.own c live]
    exact CheckPoint.scope_isPrefixOf_keyOf c.queue c.operation

end Rows.Keyed

/-! ### What machines write -/

/-- An errand writes rows of its queue. -/
theorem Errand.serves (e : Errand) {s : Site} (homed : s.rows.Homed s.ledger.config) :
    ∃ requests, (e.act s).2.rows = s.rows.apply requests ∧
      ∀ request ∈ requests, request.Serves s.ledger.config s.ledger.queue := by
  match e with
  | command c =>
    rw [act, Act.map_run]
    rcases c.act_cases s with ⟨e, -, quiet, -⟩ | ⟨d, decided, -, moves⟩
    · exact ⟨[], quiet.rows, by simp⟩
    · exact ⟨d.requests, moves.rows, Command.serves_of_decision homed decided⟩
  | checkPoints =>
    rw [act, Act.map_run]
    exact ⟨[], (Act.scan_reads s).1.rows, by simp⟩
  | isLocked group offset =>
    rw [act, Act.map_run]
    exact ⟨[], (Act.isLocked_reads group offset s).1.rows, by simp⟩

namespace Deed.OnBehalf

variable {tables : Config} {queues : Set QueueId} {h : Host} {d : Deed}

theorem requests (on : d.OnBehalf tables queues) (answers : h.Answers)
    (homed : h.store.rows.Homed tables) :
    ∃ requests, (d.run h).store.rows = h.store.rows.apply requests ∧
      ∀ request ∈ requests, request.OnBehalf tables queues := by
  match d, on with
  | .write w, on =>
    obtain ⟨-, store⟩ := answers.run w
    exact ⟨w.requests, congrArg Store.rows store, on⟩
  | .pin, _ =>
    obtain ⟨-, -, store⟩ := Host.pin_run answers
    exact ⟨[], by rw [Deed.run, store]; rfl, by simp⟩
  | .release version, _ =>
    obtain ⟨-, -, store⟩ := Host.release_run answers version
    exact ⟨[], by rw [Deed.run, store]; rfl, by simp⟩
  | .errand l e, ⟨mem, threshold, config⟩ =>
    obtain ⟨requests, rows, serves⟩ := e.serves (s := ⟨l, h⟩) (by rw [config]; exact homed)
    refine ⟨requests, rows, fun request hr => Or.inr ⟨l.queue, mem, ?_⟩⟩
    have own := serves request hr
    rw [config] at own
    exact own

end Deed.OnBehalf

/-- Requests on behalf of other queues leave the check points of a queue alone. -/
theorem Rows.get_apply_of_others {tables : Config} {queues : Set QueueId} {q : QueueId} {r : Rows}
    {requests : List Request} (distinct : tables.distinct) (other : q ∉ queues)
    (each : ∀ request ∈ requests, request.OnBehalf tables queues) {key : Bytes}
    (stem : (CheckPoint.scope q).isPrefixOf key = true) :
    (r.apply requests).get tables.checkPoints key = r.get tables.checkPoints key := by
  refine get_apply_of_ne (a := ⟨tables.checkPoints, key⟩) fun request hr here => ?_
  rcases each request hr with ⟨outside, -⟩ | ⟨q', mem, serves⟩
  · exact outside (congrArg Address.space here)
  · have owned : Owned tables q request.address := by
      rw [here]
      exact Or.inl ⟨rfl, stem⟩
    refine not_owned_of_owned distinct ?_ owned serves.owned
    rintro rfl
    exact other mem

namespace Host

variable {tables : Config} {queues : Set QueueId} {h : Host} {deeds : List Deed}

/-- What deeds on behalf of queues write, one after the other. -/
theorem requests_after (distinct : tables.distinct) (answers : h.Answers)
    (keyed : h.store.rows.Keyed tables.checkPoints)
    (on : ∀ d ∈ deeds, d.OnBehalf tables queues) :
    ∃ requests, (h.after deeds).store.rows = h.store.rows.apply requests ∧
      ∀ request ∈ requests, request.OnBehalf tables queues := by
  induction deeds generalizing h with
  | nil => exact ⟨[], rfl, by simp⟩
  | cons d deeds ih =>
    obtain ⟨first, rows, each⟩ := (on d List.mem_cons_self).requests answers keyed.homed
    -- The errands that follow need a table of records as well.
    have keyed' : (d.run h).store.rows.Keyed tables.checkPoints := by
      rw [rows]
      exact keyed.apply distinct each
    obtain ⟨rest, rows', each'⟩ :=
      ih (d.run_cases answers).1 keyed' fun d' hd' => on d' (List.mem_cons_of_mem d hd')
    refine ⟨first ++ rest, ?_, fun request hr => ?_⟩
    · rw [Rows.apply_append, ← rows]
      exact rows'
    · exact (List.mem_append.1 hr).elim (each request) (each' request)

/-- They keep the table a table of records. -/
theorem keyed_after (distinct : tables.distinct) (answers : h.Answers)
    (keyed : h.store.rows.Keyed tables.checkPoints)
    (on : ∀ d ∈ deeds, d.OnBehalf tables queues) :
    (h.after deeds).store.rows.Keyed tables.checkPoints := by
  obtain ⟨requests, rows, each⟩ := requests_after distinct answers keyed on
  rw [rows]
  exact keyed.apply distinct each

/-- They leave the check points of other queues alone. -/
theorem get_after_of_others (distinct : tables.distinct) (answers : h.Answers)
    (keyed : h.store.rows.Keyed tables.checkPoints)
    (on : ∀ d ∈ deeds, d.OnBehalf tables queues) {q : QueueId} (other : q ∉ queues) {key : Bytes}
    (stem : (CheckPoint.scope q).isPrefixOf key = true) :
    (h.after deeds).store.rows.get tables.checkPoints key =
      h.store.rows.get tables.checkPoints key := by
  obtain ⟨requests, rows, each⟩ := requests_after distinct answers keyed on
  rw [rows]
  exact Rows.get_apply_of_others distinct other each stem

end Host

/-! ### The view of a snapshot -/

/-- A view shows these check points, and nothing else, under the leading bytes of a queue. -/
def Store.Shows (s : Store) (version : UInt64) (tables : Config) (q : QueueId)
    (cs : List CheckPoint) : Prop :=
  ∀ key value, ((CheckPoint.scope q).isPrefixOf key = true ∧
      s.viewGet version tables.checkPoints key = .ok (some value)) ↔
    ∃ c ∈ cs, key = c.key ∧ value = c.encode

namespace Host

variable {tables : Config} {h : Host} {l : Ledger} {threshold : UInt64}

/-- A scan succeeds in a table of records, and what it found is what the store holds for the queue
as long as no machine writes for it. -/
theorem scan_after (distinct : tables.distinct) (answers : h.Answers)
    (keyed : h.store.rows.Keyed tables.checkPoints)
    (config : l.config = { tables with rebaseThreshold := threshold }) :
    ∃ cs, l.scanned h.store.rows = .ok cs ∧
      ∀ deeds : List Deed, (∀ d ∈ deeds, d.OnBehalf tables {l.queue}ᶜ) → ∀ key value,
        ((CheckPoint.scope l.queue).isPrefixOf key = true ∧
            (h.after deeds).store.rows.get tables.checkPoints key = some value) ↔
          ∃ c ∈ cs, key = c.key ∧ value = c.encode := by
  have space : l.config.checkPoints = tables.checkPoints := by rw [config]
  rw [← space] at keyed
  obtain ⟨cs, scan, -⟩ := (keyed.filed l.queue).scanned
  refine ⟨cs, scan, fun deeds on key value => ?_⟩
  rw [← keyed.get_iff_of_scanned scan key value]
  rw [space] at keyed ⊢
  refine and_congr_right fun stem => ?_
  rw [get_after_of_others distinct answers keyed on (by simp) stem]

/-- A view shows what the store held at its moment. -/
theorem Holding.shows {deeds : List Deed} {version : UInt64} {moment : Host} {cs : List CheckPoint}
    {q : QueueId} (held : h.Holding deeds) (pinned : h.Pinned deeds version moment)
    (here : ∀ key value, ((CheckPoint.scope q).isPrefixOf key = true ∧
        moment.store.rows.get tables.checkPoints key = some value) ↔
      ∃ c ∈ cs, key = c.key ∧ value = c.encode) :
    (h.after deeds).store.Shows version tables q cs := by
  intro key value
  rw [held.viewGet_of_pinned pinned, Except.ok.injEq]
  exact here key value

/-- In a table of records a machine takes its snapshot, with what it has scanned. -/
theorem takeSnapshot_run (answers : h.Answers) {cs : List CheckPoint}
    (scan : l.scanned h.store.rows = .ok cs) :
    ∃ snapshot, (Act.takeSnapshot ⟨l, h⟩).1 = .ok snapshot ∧ snapshot.checkPoints = cs := by
  rcases Act.takeSnapshot_cases ⟨l, h⟩ with
    ⟨e, -, -, failed | ⟨refuses, -⟩⟩ | ⟨cs', found, answer, -⟩
  · rw [show l.scanned h.store.rows = _ from failed] at scan
    cases scan
  · exact absurd answers refuses
  · rw [show l.scanned h.store.rows = _ from found] at scan
    cases scan
    exact ⟨_, answer, rfl⟩

/-- **A view shows the moment at which it was pinned.** Let any deeds be done, one after the other,
on an empty store that answers, and let fewer versions be given out than there are words.

The versions ascend strictly, so none is given out twice. Under a version that was given out and not
let go of since, each row is read as it would have been read at that moment; under any other version
reading fails. Letting go of a version is answered with true if it was given out and not let go of
since, so once at most, and just once if it was given out and is not held any more; it changes no
live row and no other view. As many views are retained as versions were given out and not let go of
since.

If moreover three different tables are written by machines only, then a machine that takes a
snapshot succeeds, and until its version is let go of, the view shows under the leading bytes of the
queue exactly the check points of the snapshot. This is so although the check points are read first
and the view is pinned later: a view shows what a scan has found as long as no deed in between is on
behalf of this queue. -/
theorem view_shows_moment (answers : h.Answers) (empty : h.store = .empty) (deeds : List Deed)
    (few : (h.tokens deeds).length < 2 ^ 64) :
    let now := h.after deeds
    (h.tokens deeds).Pairwise (· < ·) ∧
    (∀ version moment, h.Pinned deeds version moment → ∀ space key,
      ∃ value, (get space key moment).1 = .ok value ∧
        now.store.viewGet version space key = .ok value) ∧
    (∀ version, (¬ ∃ moment, h.Pinned deeds version moment) → ∀ space key,
      now.store.viewGet version space key = .error (.unknownSnapshot version)) ∧
    (∀ version, ∃ held, (release version now).1 = .ok held ∧
      (held = true ↔ ∃ moment, h.Pinned deeds version moment)) ∧
    (∀ version, (h.freed version deeds).count true ≤ 1 ∧
      ((h.freed version deeds).count true = 1 ↔
        version ∈ h.tokens deeds ∧ ¬ ∃ moment, h.Pinned deeds version moment)) ∧
    (∀ gone, (release gone now).2.store.rows = now.store.rows ∧
      ∀ version ≠ gone, ∀ space key, (release gone now).2.store.viewGet version space key =
        now.store.viewGet version space key) ∧
    now.store.retained = {version | ∃ moment, h.Pinned deeds version moment}.ncard ∧
    (∀ tables : Config, tables.distinct → (∀ d ∈ deeds, d.OnBehalf tables Set.univ) →
      (∀ earlier l later, deeds = earlier ++ .errand l (.command .takeSnapshot) :: later →
        ∃ snapshot, (Act.takeSnapshot ⟨l, h.after earlier⟩).1 = .ok snapshot ∧
          ((∀ d ∈ later, d.released? ≠ some snapshot.storeVersion) →
            now.store.Shows snapshot.storeVersion tables l.queue snapshot.checkPoints)) ∧
      (∀ earlier between d later l threshold version,
        deeds = earlier ++ (between ++ d :: later) →
        l.config = { tables with rebaseThreshold := threshold } →
        (∀ d' ∈ between, d'.OnBehalf tables {l.queue}ᶜ) →
        d.given (h.after (earlier ++ between)) = some version →
        (∀ d' ∈ later, d'.released? ≠ some version) →
        ∃ cs, (Act.scan ⟨l, h.after earlier⟩).1 = .ok cs ∧
          now.store.Shows version tables l.queue cs)) := by
  intro now
  have held := holding answers empty deeds few
  have answers_now := answers.after deeds
  have keyed {tables : Config} (distinct : tables.distinct)
      (on : ∀ d ∈ deeds, d.OnBehalf tables Set.univ) {earlier later : List Deed}
      (split : deeds = earlier ++ later) :
      (h.after earlier).store.rows.Keyed tables.checkPoints := by
    refine keyed_after distinct answers ?_ fun d hd => on d (by simp [split, hd])
    rw [empty]
    exact Rows.Keyed.empty tables.checkPoints
  refine ⟨held.ascending, ?reads, fun version => held.viewGet_of_not_pinned, ?release, held.once,
    ?others, held.retained_eq, fun tables distinct on => ⟨?taken, ?apart⟩⟩
  case reads =>
    intro version moment pinned space key
    obtain ⟨earlier, -, -, -, rfl, -, -⟩ := id pinned
    exact ⟨_, get_run (answers.after earlier) space key, held.viewGet_of_pinned pinned space key⟩
  case release =>
    intro version
    exact ⟨_, (release_run answers_now version).1, held.holds_iff version⟩
  case others =>
    intro gone
    rw [(release_run answers_now gone).2.2]
    exact ⟨rfl, fun version other space key => now.store.viewGet_release other space key⟩
  case taken =>
    intro earlier l later split
    obtain ⟨-, threshold, config⟩ := on (.errand l (.command .takeSnapshot)) (by simp [split])
    obtain ⟨cs, scan, here⟩ :=
      scan_after distinct (answers.after earlier) (keyed distinct on split) config
    obtain ⟨snapshot, taken, rfl⟩ := takeSnapshot_run (answers.after earlier) scan
    refine ⟨snapshot, taken, fun keeps => ?_⟩
    have given : (Deed.errand l (.command .takeSnapshot)).given (h.after earlier) =
        some snapshot.storeVersion := by
      rw [Deed.given_takeSnapshot, taken]
      rfl
    exact held.shows ⟨earlier, _, later, split, rfl, given, keeps⟩ (here [] (by simp))
  case apart =>
    intro earlier between d later l threshold version split config others given keeps
    obtain ⟨cs, scan, here⟩ :=
      scan_after distinct (answers.after earlier) (keyed distinct on split) config
    refine ⟨cs, (Act.scan_reads.of_answers (answers.after earlier)).trans scan, ?_⟩
    have pinned : h.Pinned deeds version (h.after (earlier ++ between)) :=
      ⟨earlier ++ between, d, later, by rw [split, List.append_assoc], rfl, given, keeps⟩
    refine held.shows pinned ?_
    rw [after_append]
    exact here between others

/-- Two queues pop. A snapshot of the first one pins the view 0, and a second view is pinned and let
go of later. Meanwhile a row of another namespace is removed, and the first delivery is renewed. The
view 0 still shows the delivery as it was. -/
theorem view_shows_moment_renewed :
    let machine (q : QueueId) : Ledger := .empty q .standard
    let popped (q : QueueId) : Pop := ⟨q, 5, 9, 3, .order, 1000, 500, false, 0⟩
    let c := CheckPoint.ofPop 1 (popped ⟨1, 0⟩)
    let pop (q : QueueId) : Deed := .errand (machine q) (.command (.replay 1 (.pop (popped q))))
    let earlier : List Deed := [pop ⟨1, 0⟩, .write (.put "notes" [1] [2]), pop ⟨1, 1⟩]
    let taken : Deed := .errand (machine ⟨1, 0⟩) (.command .takeSnapshot)
    let later : List Deed :=
      [.pin, .errand (machine ⟨1, 0⟩) (.command (.replay 2 (.renewal ⟨⟨1, 0⟩, 1, 1000, 8000⟩))),
        .write (.delete "notes" [1]), .release 1, .release 1]
    let deeds := earlier ++ taken :: later
    let now := fresh.after deeds
    fresh.tokens deeds = [0, 1] ∧ fresh.freed 1 deeds = [true, false] ∧ now.store.retained = 1 ∧
      now.store.rows.get "check_point" c.key = some (c.renewed 9000).encode ∧
      now.store.Shows 0 .standard ⟨1, 0⟩ [c] ∧
      now.store.viewGet 0 "notes" [1] = .ok (some [2]) ∧
      now.store.viewGet 1 "notes" [1] = .error (.unknownSnapshot 1) := by
  intro machine popped c pop earlier taken later deeds now
  have answers : fresh.Answers := fun _ _ => rfl
  have tokens : fresh.tokens deeds = [0, 1] := by decide +kernel
  have few : (fresh.tokens deeds).length < 2 ^ 64 := by rw [tokens]; decide
  obtain ⟨-, reads, unknown, released, -, -, -, machines⟩ :=
    view_shows_moment answers rfl deeds few
  have errand (q : QueueId) (e : Errand) :
      (Deed.errand (machine q) e).OnBehalf .standard Set.univ :=
    ⟨trivial, _, rfl⟩
  have notes (request : Request) (space : request.space = "notes") :
      request.OnBehalf .standard Set.univ := by
    refine Or.inl ?_
    rw [space]
    decide
  have on : ∀ d ∈ deeds, d.OnBehalf .standard Set.univ := by
    simp only [deeds, earlier, later, List.cons_append, List.nil_append, List.forall_mem_cons]
    refine ⟨errand _ _, ?_, errand _ _, errand _ _, trivial, errand _ _, ?_, trivial, trivial,
      nofun⟩
    · exact List.forall_mem_singleton.2 (notes _ rfl)
    · exact List.forall_mem_singleton.2 (notes _ rfl)
  obtain ⟨snapshot, given, shows⟩ := (machines .standard (by decide) on).1 earlier _ later rfl
  have content : (Act.takeSnapshot ⟨machine ⟨1, 0⟩, fresh.after earlier⟩).1.toOption.map
      (fun snapshot => (snapshot.storeVersion, snapshot.checkPoints)) = some (0, [c]) := by
    decide +kernel
  rw [given] at content
  obtain ⟨version, checkPoints⟩ := Prod.mk.inj (Option.some.inj content)
  rw [version, checkPoints] at shows
  have pinned : fresh.Pinned deeds 0 (fresh.after earlier) := by
    refine ⟨earlier, taken, later, rfl, rfl, ?_, ?_⟩
    · rw [Deed.given_takeSnapshot, given]
      exact congrArg some version
    · decide +kernel
  have gone : ¬ ∃ moment, fresh.Pinned deeds 1 moment := by
    obtain ⟨held, answer, iff⟩ := released 1
    have refused : (release 1 now).1 = .ok false := by decide +kernel
    rw [answer, Except.ok.injEq] at refused
    rw [← iff, refused]
    nofun
  obtain ⟨value, was, shown⟩ := reads 0 _ pinned "notes" [1]
  refine ⟨tokens, by decide +kernel, by decide +kernel, by decide +kernel, shows ?_, ?_,
    unknown 1 gone "notes" [1]⟩
  · decide +kernel
  · rw [shown, ← was]
    decide +kernel

end Host

end QueueLedger
