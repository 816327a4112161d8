import Mathlib.Data.List.Induction
import Mathlib.Data.Set.Card
import QueueLedger.Proofs.Isolation
import QueueLedger.Proofs.Visits
/-!
# Pinned views

A store that machines share sees a sequence of deeds: writes, views pinned and let go of, and the
errands of machines, which write, pin and let go as well. A view is told by the deeds alone: under a
version the store holds the rows of the moment at which the version was given out, from then on
until it is let go of, whatever is written meanwhile (`Host.Holding`).

## Proof shape

`Deed.run_cases` says once what a deed can do to a store: it pins a view, lets go of one, or applies
requests. `Holding` is carried through a sequence from its front, one deed at its end after the
other. Versions that were given out stay below the next one, so a new view takes no old place.
-/

namespace QueueLedger

/-- What can be done to a store that machines share. -/
inductive Deed
  /-- Rows are written by a call on the store. -/
  | write (w : Write)
  /-- A view is pinned by a call on the store. -/
  | pin
  /-- A view is let go of by a call on the store. -/
  | release (version : UInt64)
  /-- A machine, in whatever state it is, runs an errand. -/
  | errand (l : Ledger) (e : Errand)

/-- The version of the view that a reply brings. -/
def Reply.version? : Reply → Option UInt64
  | done snapshot => snapshot.map Snapshot.storeVersion
  | checkPoints _ => none
  | locked _ => none

namespace Deed

/-- The host after a deed. -/
def run : Deed → Host → Host
  | write w, h => (w.run h).2
  | pin, h => (Host.pin h).2
  | release version, h => (Host.release version h).2
  | errand l e, h => (e.act ⟨l, h⟩).2.host

/-- The version that a deed gives out. -/
def given : Deed → Host → Option UInt64
  | write _, _ => none
  | pin, h => (Host.pin h).1.toOption
  | release _, _ => none
  | errand l e, h => (e.act ⟨l, h⟩).1.toOption.bind Reply.version?

/-- The version that a deed lets go of. -/
def released? : Deed → Option UInt64
  | release version => some version
  | errand _ (.command (.release s)) => some s.storeVersion
  | _ => none

/-- What is answered to a deed that lets go of a version. -/
def answer? : Deed → Host → Option Bool
  | release version, h => (Host.release version h).1.toOption
  | errand l (.command (.release s)), h => (Act.release s ⟨l, h⟩).1.toOption
  | _, _ => none

end Deed

/-! ### One deed -/

namespace Store

/-- The views after one more is pinned. -/
theorem get_views_pin (s : Store) (version : UInt64) :
    s.pin.views.get? version =
      if s.nextVersion = version then some s.rows else s.views.get? version := by
  simp [pin, Std.ExtTreeMap.getElem?_insert]

/-- The views after one is let go of. -/
theorem get_views_release (s : Store) (gone version : UInt64) :
    (s.release gone).views.get? version =
      if gone = version then none else s.views.get? version := by
  simp [release, Std.ExtTreeMap.getElem?_erase]

theorem holds_iff (s : Store) (version : UInt64) :
    s.holds version = true ↔ ∃ rows, s.views.get? version = some rows := by
  rw [holds, Std.ExtTreeMap.contains_iff_mem, Std.ExtTreeMap.mem_iff_isSome_getElem?,
    Option.isSome_iff_exists]
  rfl

theorem retained_eq_ncard (s : Store) :
    s.retained = {version | s.holds version = true}.ncard := by
  have held : {version | s.holds version = true} = ↑s.views.keys.toFinset := by
    ext version
    simp [holds]
  rw [held, Set.ncard_coe_finset, List.toFinset_card_of_nodup s.views.nodup_keys,
    Std.ExtTreeMap.length_keys, retained]

/-- Letting go of a view leaves the other views alone. -/
theorem viewGet_release (s : Store) {gone version : UInt64} (other : version ≠ gone)
    (space : String) (key : Bytes) :
    (s.release gone).viewGet version space key = s.viewGet version space key := by
  rw [viewGet, viewGet, get_views_release, if_neg other.symm]

end Store

namespace Host

variable {h : Host}

theorem get_run (answers : h.Answers) (space : String) (key : Bytes) :
    (get space key h).1 = .ok (h.store.rows.get space key) := by
  rw [get, attempt_answered (answers.refusesNext .get)]

theorem pin_run (answers : h.Answers) :
    (pin h).1 = .ok h.store.nextVersion ∧ (pin h).2.Answers ∧ (pin h).2.store = h.store.pin := by
  rw [pin, attempt_answered (answers.refusesNext .takeSnapshot)]
  exact ⟨rfl, answers, rfl⟩

theorem release_run (answers : h.Answers) (version : UInt64) :
    (release version h).1 = .ok (h.store.holds version) ∧ (release version h).2.Answers ∧
      (release version h).2.store = h.store.release version := by
  rw [release, attempt_answered (answers.refusesNext .releaseSnapshot)]
  exact ⟨rfl, answers, rfl⟩

end Host

theorem Act.release_run (snapshot : Snapshot) {s : Site} (answers : s.host.Answers) :
    (release snapshot s).1 = .ok (s.host.store.holds snapshot.storeVersion) ∧
      (release snapshot s).2.host.Answers ∧
      (release snapshot s).2.host.store = s.host.store.release snapshot.storeVersion := by
  rw [release, bind_run, ledger_run]
  dsimp only
  rw [bind_run, onHost, Host.release, Host.attempt_answered (answers.refusesNext .releaseSnapshot)]
  exact ⟨rfl, answers, rfl⟩

theorem Act.Does.store {x : Act Unit} {d : Ledger → Rows → Except Failure Decision} (h : Does x d)
    {s : Site} (answers : s.host.Answers) :
    ∃ requests, (x s).2.host.store = s.host.store.apply requests := by
  rcases h.of_answers answers with ⟨e, -, -, quiet⟩ | ⟨decision, -, -, done⟩
  · exact ⟨[], quiet.host.store⟩
  · exact ⟨decision.requests, done.store⟩

namespace Deed

/-- What a deed on a host did to the store: it pinned a view and gave out its version, or it let go
of a version and said whether there was a view, or it applied requests. -/
inductive Effect (d : Deed) (h : Host) : Prop
  | pins (given : d.given h = some h.store.nextVersion) (keeps : d.released? = none)
      (store : (d.run h).store = h.store.pin)
  | releases (version : UInt64) (given : d.given h = none) (gone : d.released? = some version)
      (answer : d.answer? h = some (h.store.holds version))
      (store : (d.run h).store = h.store.release version)
  | writes (requests : List Request) (given : d.given h = none) (keeps : d.released? = none)
      (store : (d.run h).store = h.store.apply requests)

variable {h : Host} {l : Ledger}

/-- A call that carries out a decision applies requests. -/
theorem effect_of_does (answers : h.Answers) {x : Act Unit}
    {decide : Ledger → Rows → Except Failure Decision} (does : Act.Does x decide) {c : Command}
    (act : c.act = (fun _ => none) <$> x) (keeps : (errand l (.command c)).released? = none) :
    ((errand l (.command c)).run h).Answers ∧ (errand l (.command c)).Effect h := by
  obtain ⟨requests, store⟩ := does.store (s := ⟨l, h⟩) answers
  refine ⟨?_, .writes requests ?_ keeps ?_⟩
  · rw [run, Errand.act, Act.map_run, act, Act.map_run]
    exact does.answers answers
  · rw [given, Errand.act, Act.map_run, act, Act.map_run]
    cases (x ⟨l, h⟩).1 <;> rfl
  · rw [run, Errand.act, Act.map_run, act, Act.map_run]
    exact store

/-- An errand that only looks applies no requests. -/
theorem effect_of_quiet (answers : h.Answers) {e : Errand}
    (quiet : Site.Quiet ⟨l, h⟩ (e.act ⟨l, h⟩).2) (given : (errand l e).given h = none)
    (keeps : (errand l e).released? = none) :
    ((errand l e).run h).Answers ∧ (errand l e).Effect h :=
  ⟨quiet.host.answers.2 answers, .writes [] given keeps quiet.host.store⟩

/-- A snapshot carries the version that it gives out. -/
theorem given_takeSnapshot (l : Ledger) (h : Host) :
    (errand l (.command .takeSnapshot)).given h =
      (Act.takeSnapshot ⟨l, h⟩).1.toOption.map Snapshot.storeVersion := by
  rw [given, Errand.act, Act.map_run, Command.act, Act.map_run]
  cases (Act.takeSnapshot ⟨l, h⟩).1 <;> rfl

theorem effect_of_takeSnapshot (answers : h.Answers) :
    ((errand l (.command .takeSnapshot)).run h).Answers ∧
      (errand l (.command .takeSnapshot)).Effect h := by
  have after : (errand l (.command .takeSnapshot)).run h = (Act.takeSnapshot ⟨l, h⟩).2.host := by
    rw [run, Errand.act, Act.map_run, Command.act, Act.map_run]
  rcases Act.takeSnapshot_cases ⟨l, h⟩ with ⟨e, answer, quiet, -⟩ | ⟨cs, -, answer, pins⟩
  · refine ⟨?_, .writes [] ?_ rfl ?_⟩
    · rw [after]
      exact quiet.host.answers.2 answers
    · rw [given_takeSnapshot, answer]
      rfl
    · rw [after]
      exact quiet.host.store
  · refine ⟨?_, .pins ?_ rfl ?_⟩
    · rw [after, Host.Answers, pins.refuses]
      exact answers
    · rw [given_takeSnapshot, answer]
      rfl
    · rw [after]
      exact pins.store

/-- **What can become of a store that answers.** It goes on to answer, and one of three things
happened to it. -/
theorem run_cases (answers : h.Answers) (d : Deed) : (d.run h).Answers ∧ d.Effect h := by
  match d with
  | write w =>
    obtain ⟨answers', store⟩ := answers.run w
    exact ⟨answers', .writes w.requests rfl rfl store⟩
  | pin =>
    obtain ⟨given, answers', store⟩ := Host.pin_run answers
    exact ⟨answers', .pins (congrArg Except.toOption given) rfl store⟩
  | release version =>
    obtain ⟨answer, answers', store⟩ := Host.release_run answers version
    exact ⟨answers', .releases version rfl rfl (congrArg Except.toOption answer) store⟩
  | errand l (.command (.replay id o)) =>
    exact effect_of_does answers (Act.replay_does id o) rfl rfl
  | errand l (.command (.load s)) =>
    exact effect_of_does answers (Act.loadSnapshot_does s) rfl rfl
  | errand l (.command .clear) => exact effect_of_does answers Act.clear_does rfl rfl
  | errand l (.command .takeSnapshot) => exact effect_of_takeSnapshot answers
  | errand l (.command (.release s)) =>
    obtain ⟨answer, answers', store⟩ := Act.release_run s (s := ⟨l, h⟩) answers
    refine ⟨?_, .releases s.storeVersion ?_ rfl ?_ ?_⟩
    · rw [run, Errand.act, Act.map_run, Command.act, Act.map_run]
      exact answers'
    · rw [given, Errand.act, Act.map_run, Command.act, Act.map_run, answer]
      rfl
    · rw [answer?, answer]
      rfl
    · rw [run, Errand.act, Act.map_run, Command.act, Act.map_run]
      exact store
  | errand l .checkPoints =>
    refine effect_of_quiet answers ?_ ?_ rfl
    · rw [Errand.act, Act.map_run]
      exact (Act.scan_reads ⟨l, h⟩).1
    · rw [given, Errand.act, Act.map_run]
      cases (Act.checkPoints ⟨l, h⟩).1 <;> rfl
  | errand l (.isLocked group offset) =>
    refine effect_of_quiet answers ?_ ?_ rfl
    · rw [Errand.act, Act.map_run]
      exact (Act.isLocked_reads group offset ⟨l, h⟩).1
    · rw [given, Errand.act, Act.map_run]
      cases (Act.isLocked group offset ⟨l, h⟩).1 <;> rfl

end Deed

/-! ### Many deeds -/

namespace Host

variable {α : Type} {h moment : Host} {deeds : List Deed} {version : UInt64}

/-- The host after some deeds. -/
def after (h : Host) (deeds : List Deed) : Host := deeds.foldl (fun h d => d.run h) h

/-- What is told in each of some deeds, in order. -/
def told (told? : Deed → Host → Option α) (h : Host) : List Deed → List α
  | [] => []
  | d :: later => (told? d h).toList ++ told told? (d.run h) later

/-- The versions that were given out, in order. -/
def tokens (h : Host) (deeds : List Deed) : List UInt64 := h.told Deed.given deeds

/-- The answers to the deeds that let go of a version, in order. -/
def freed (h : Host) (version : UInt64) (deeds : List Deed) : List Bool :=
  h.told (fun d h => if d.released? = some version then d.answer? h else none) deeds

/-- A version was given out at a moment, and was not let go of since. -/
def Pinned (h : Host) (deeds : List Deed) (version : UInt64) (moment : Host) : Prop :=
  ∃ earlier d later, deeds = earlier ++ d :: later ∧ moment = h.after earlier ∧
    d.given moment = some version ∧ ∀ d' ∈ later, d'.released? ≠ some version

@[simp] theorem after_nil (h : Host) : h.after [] = h := rfl

@[simp] theorem after_append (h : Host) (deeds deeds' : List Deed) :
    h.after (deeds ++ deeds') = (h.after deeds).after deeds' := List.foldl_append

@[simp] theorem after_singleton (h : Host) (d : Deed) : h.after [d] = d.run h := rfl

theorem Answers.after (answers : h.Answers) (deeds : List Deed) : (h.after deeds).Answers := by
  induction deeds generalizing h with
  | nil => exact answers
  | cons d deeds ih => exact ih (d.run_cases answers).1

/-- What was told up to one more deed. -/
theorem told_append_singleton (told? : Deed → Host → Option α) (h : Host) (deeds : List Deed)
    (d : Deed) :
    h.told told? (deeds ++ [d]) = h.told told? deeds ++ (told? d (h.after deeds)).toList := by
  induction deeds generalizing h with
  | nil => simp [told]
  | cons d' deeds ih => rw [List.cons_append, told, ih, told, List.append_assoc]; rfl

theorem tokens_append_singleton (h : Host) (deeds : List Deed) (d : Deed) :
    h.tokens (deeds ++ [d]) = h.tokens deeds ++ (d.given (h.after deeds)).toList :=
  told_append_singleton _ h deeds d

theorem freed_append_singleton (h : Host) (version : UInt64) (deeds : List Deed) (d : Deed) :
    h.freed version (deeds ++ [d]) = h.freed version deeds ++
      (if d.released? = some version then d.answer? (h.after deeds) else none).toList :=
  told_append_singleton _ h deeds d

@[simp] theorem not_pinned_nil : ¬ h.Pinned [] version moment := by
  rintro ⟨earlier, d, later, split, -⟩
  cases earlier <;> cases split

/-- A version is outstanding if it was given out just now, or was outstanding and is not let go
of. -/
theorem pinned_append_singleton {d : Deed} :
    h.Pinned (deeds ++ [d]) version moment ↔
      (moment = h.after deeds ∧ d.given moment = some version) ∨
        (h.Pinned deeds version moment ∧ d.released? ≠ some version) := by
  constructor
  · rintro ⟨earlier, d', later, split, at_, given, keeps⟩
    rcases List.eq_nil_or_concat later with rfl | ⟨later, last, rfl⟩
    · obtain ⟨rfl, eq⟩ := List.append_inj' split rfl
      cases eq
      exact Or.inl ⟨at_, given⟩
    · rw [List.concat_eq_append, ← List.cons_append, ← List.append_assoc] at split
      obtain ⟨rfl, eq⟩ := List.append_inj' split rfl
      cases eq
      exact Or.inr ⟨⟨earlier, d', later, rfl, at_, given, fun d' hd' => keeps d' (by simp [hd'])⟩,
        keeps d (by simp)⟩
  · rintro (⟨at_, given⟩ | ⟨⟨earlier, d', later, rfl, at_, given, keeps⟩, keep⟩)
    · exact ⟨deeds, d, [], rfl, at_, given, by simp⟩
    · refine ⟨earlier, d', later ++ [d], by simp, at_, given, fun d'' hd'' => ?_⟩
      rcases List.mem_append.1 hd'' with hd'' | hd''
      · exact keeps d'' hd''
      · rw [List.mem_singleton.1 hd'']
        exact keep

theorem pinned_of_nothing_given {d : Deed} (given : d.given (h.after deeds) = none) :
    h.Pinned (deeds ++ [d]) version moment ↔
      h.Pinned deeds version moment ∧ d.released? ≠ some version := by
  rw [pinned_append_singleton, or_iff_right]
  rintro ⟨rfl, now⟩
  rw [given] at now
  cases now

/-- A version that is outstanding was given out. -/
theorem Pinned.mem_tokens (pinned : h.Pinned deeds version moment) : version ∈ h.tokens deeds := by
  induction deeds using List.reverseRecOn with
  | nil => exact absurd pinned not_pinned_nil
  | append_singleton deeds d ih =>
    rw [tokens_append_singleton]
    rcases pinned_append_singleton.1 pinned with ⟨rfl, given⟩ | ⟨before, -⟩
    · simp [given]
    · exact List.mem_append_left _ (ih before)

/-- What the deeds so far have made of the versions and the views of a store. -/
structure Holding (h : Host) (deeds : List Deed) : Prop where
  next : (h.after deeds).store.nextVersion.toNat = (h.tokens deeds).length
  below : ∀ version ∈ h.tokens deeds, version < (h.after deeds).store.nextVersion
  ascending : (h.tokens deeds).Pairwise (· < ·)
  views : ∀ version rows, (h.after deeds).store.views.get? version = some rows ↔
    ∃ moment, h.Pinned deeds version moment ∧ moment.store.rows = rows
  once : ∀ version, (h.freed version deeds).count true ≤ 1 ∧
    ((h.freed version deeds).count true = 1 ↔
      version ∈ h.tokens deeds ∧ ¬ ∃ moment, h.Pinned deeds version moment)

namespace Holding

/-- A version is held if it is outstanding. -/
theorem holds_iff (held : h.Holding deeds) (version : UInt64) :
    (h.after deeds).store.holds version = true ↔ ∃ moment, h.Pinned deeds version moment := by
  rw [Store.holds_iff]
  constructor
  · rintro ⟨rows, here⟩
    obtain ⟨moment, pinned, -⟩ := (held.views version rows).1 here
    exact ⟨moment, pinned⟩
  · rintro ⟨moment, pinned⟩
    exact ⟨_, (held.views version _).2 ⟨moment, pinned, rfl⟩⟩

/-- A view shows the rows of its moment. -/
theorem viewGet_of_pinned (held : h.Holding deeds) (pinned : h.Pinned deeds version moment)
    (space : String) (key : Bytes) :
    (h.after deeds).store.viewGet version space key = .ok (moment.store.rows.get space key) := by
  rw [Store.viewGet, (held.views version _).2 ⟨moment, pinned, rfl⟩]

theorem viewGet_of_not_pinned (held : h.Holding deeds)
    (gone : ¬ ∃ moment, h.Pinned deeds version moment) (space : String) (key : Bytes) :
    (h.after deeds).store.viewGet version space key = .error (.unknownSnapshot version) := by
  rw [Store.viewGet]
  cases here : (h.after deeds).store.views.get? version with
  | none => rfl
  | some rows =>
    obtain ⟨moment, pinned, -⟩ := (held.views version rows).1 here
    exact absurd ⟨moment, pinned⟩ gone

theorem retained_eq (held : h.Holding deeds) : (h.after deeds).store.retained =
    {version | ∃ moment, h.Pinned deeds version moment}.ncard := by
  rw [Store.retained_eq_ncard]
  congr 1
  exact Set.ext held.holds_iff

theorem nil (empty : h.store = .empty) : h.Holding [] where
  next := by rw [after_nil, empty]; rfl
  below := by simp [tokens, told]
  ascending := .nil
  views version rows := by
    rw [after_nil, empty]
    simp [Store.empty]
  once version := by simp [freed, tokens, told]

/-- A new view is pinned, under a version that was not given out before. -/
theorem pins (held : h.Holding deeds) {d : Deed} (few : (h.tokens deeds).length + 1 < 2 ^ 64)
    (given : d.given (h.after deeds) = some (h.after deeds).store.nextVersion)
    (keeps : d.released? = none)
    (store : (d.run (h.after deeds)).store = (h.after deeds).store.pin) :
    h.Holding (deeds ++ [d]) := by
  let next := (h.after deeds).store.nextVersion
  have tokens : h.tokens (deeds ++ [d]) = h.tokens deeds ++ [next] := by
    rw [tokens_append_singleton, given]
    rfl
  have freed (version : UInt64) : h.freed version (deeds ++ [d]) = h.freed version deeds := by
    rw [freed_append_singleton, keeps, if_neg nofun, Option.toList_none, List.append_nil]
  have fresh : next ∉ h.tokens deeds := fun given => UInt64.lt_irrefl next (held.below next given)
  have pinned_next (moment : Host) :
      h.Pinned (deeds ++ [d]) next moment ↔ moment = h.after deeds := by
    rw [pinned_append_singleton]
    constructor
    · rintro (⟨at_, -⟩ | ⟨before, -⟩)
      · exact at_
      · exact absurd before.mem_tokens fresh
    · rintro rfl
      exact Or.inl ⟨rfl, given⟩
  have pinned_other {version : UInt64} (other : next ≠ version) (moment : Host) :
      h.Pinned (deeds ++ [d]) version moment ↔ h.Pinned deeds version moment := by
    rw [pinned_append_singleton, keeps]
    refine ⟨?_, fun before => Or.inr ⟨before, nofun⟩⟩
    rintro (⟨rfl, now⟩ | ⟨before, -⟩)
    · exact absurd (Option.some.inj (given.symm.trans now)) other
    · exact before
  have up : (next + 1).toNat = next.toNat + 1 := by
    rw [UInt64.toNat_add, held.next]
    exact Nat.mod_eq_of_lt few
  constructor
  case next =>
    rw [after_append, after_singleton, store, tokens, List.length_append, ← held.next]
    exact up
  case below =>
    intro version mem
    rw [after_append, after_singleton, store]
    show version < next + 1
    rw [tokens, List.mem_append, List.mem_singleton] at mem
    rw [UInt64.lt_iff_toNat_lt, up]
    rcases mem with earlier | rfl
    · exact Nat.lt_succ_of_lt (UInt64.lt_iff_toNat_lt.1 (held.below version earlier))
    · exact Nat.lt_succ_self _
  case ascending =>
    rw [tokens, List.pairwise_append]
    refine ⟨held.ascending, List.pairwise_singleton _ _, fun version earlier version' last => ?_⟩
    rw [List.mem_singleton.1 last]
    exact held.below version earlier
  case views =>
    intro version rows
    rw [after_append, after_singleton, store, Store.get_views_pin]
    split
    next same =>
      obtain rfl : next = version := same
      simp [pinned_next]
    next other =>
      simp only [pinned_other other]
      exact held.views version rows
  case once =>
    intro version
    rw [freed, tokens, List.mem_append, List.mem_singleton]
    obtain ⟨most, iff⟩ := held.once version
    refine ⟨most, iff.trans ?_⟩
    by_cases same : next = version
    · subst same
      simp [pinned_next, fresh]
    · simp only [pinned_other same, Ne.symm same, or_false]

/-- A deed that gives out nothing leaves the versions alone. -/
theorem of_nothing_given (held : h.Holding deeds) {d : Deed}
    (given : d.given (h.after deeds) = none)
    (next : (d.run (h.after deeds)).store.nextVersion = (h.after deeds).store.nextVersion)
    (views : ∀ version rows, (d.run (h.after deeds)).store.views.get? version = some rows ↔
      ∃ moment, h.Pinned (deeds ++ [d]) version moment ∧ moment.store.rows = rows)
    (once : ∀ version, (h.freed version (deeds ++ [d])).count true ≤ 1 ∧
      ((h.freed version (deeds ++ [d])).count true = 1 ↔
        version ∈ h.tokens deeds ∧ ¬ ∃ moment, h.Pinned (deeds ++ [d]) version moment)) :
    h.Holding (deeds ++ [d]) := by
  have tokens : h.tokens (deeds ++ [d]) = h.tokens deeds := by
    rw [tokens_append_singleton, given, Option.toList_none, List.append_nil]
  constructor
  case next =>
    rw [after_append, after_singleton, next, tokens]
    exact held.next
  case below =>
    rw [after_append, after_singleton, next, tokens]
    exact held.below
  case ascending =>
    rw [tokens]
    exact held.ascending
  case views =>
    rw [after_append, after_singleton]
    exact views
  case once =>
    rw [tokens]
    exact once

/-- A version is let go of. That is answered with true if it is outstanding. -/
theorem releases (held : h.Holding deeds) {d : Deed} (given : d.given (h.after deeds) = none)
    {gone : UInt64} (released : d.released? = some gone)
    (answer : d.answer? (h.after deeds) = some ((h.after deeds).store.holds gone))
    (store : (d.run (h.after deeds)).store = (h.after deeds).store.release gone) :
    h.Holding (deeds ++ [d]) := by
  have pinned (version : UInt64) (moment : Host) : h.Pinned (deeds ++ [d]) version moment ↔
      h.Pinned deeds version moment ∧ gone ≠ version := by
    rw [pinned_of_nothing_given given, released, Ne, Option.some.injEq]
  refine held.of_nothing_given given (by rw [store]; rfl) ?_ ?_
  · intro version rows
    rw [store, Store.get_views_release]
    simp only [pinned]
    split
    next same => simp [same]
    next other =>
      simp only [Ne, other, not_false_eq_true, and_true]
      exact held.views version rows
  · intro version
    rw [freed_append_singleton, released, answer, List.count_append]
    simp only [pinned]
    obtain ⟨most, iff⟩ := held.once version
    by_cases same : gone = version
    · subst same
      rw [if_pos rfl, Option.toList_some]
      have held_iff := held.holds_iff gone
      cases holds : (h.after deeds).store.holds gone with
      | true =>
        obtain ⟨moment, outstanding⟩ := held_iff.1 holds
        have not_yet : (h.freed gone deeds).count true ≠ 1 :=
          fun one => (iff.1 one).2 ⟨moment, outstanding⟩
        have zero : (h.freed gone deeds).count true = 0 := by omega
        simp [zero, outstanding.mem_tokens]
      | false =>
        have ended : ¬ ∃ moment, h.Pinned deeds gone moment := by
          rw [← held_iff, holds]
          nofun
        simpa [ended] using held.once gone
    · rw [if_neg fun eq => same (Option.some.inj eq)]
      simpa [same] using held.once version

/-- Requests are applied. -/
theorem writes (held : h.Holding deeds) {d : Deed} (given : d.given (h.after deeds) = none)
    (keeps : d.released? = none) {requests : List Request}
    (store : (d.run (h.after deeds)).store = (h.after deeds).store.apply requests) :
    h.Holding (deeds ++ [d]) := by
  have pinned (version : UInt64) (moment : Host) :
      h.Pinned (deeds ++ [d]) version moment ↔ h.Pinned deeds version moment := by
    rw [pinned_of_nothing_given given, keeps]
    exact and_iff_left nofun
  refine held.of_nothing_given given (by rw [store]; rfl) ?_ ?_
  · intro version rows
    rw [store]
    simp only [pinned]
    exact held.views version rows
  · intro version
    rw [freed_append_singleton, keeps, if_neg nofun, Option.toList_none, List.append_nil]
    simp only [pinned]
    exact held.once version

/-- What one more deed keeps. -/
theorem deed (held : h.Holding deeds) (answers : (h.after deeds).Answers) (d : Deed)
    (few : (h.tokens (deeds ++ [d])).length < 2 ^ 64) : h.Holding (deeds ++ [d]) := by
  obtain ⟨-, effect⟩ := d.run_cases answers
  cases effect with
  | pins given keeps store =>
    rw [tokens_append_singleton, given, List.length_append] at few
    exact held.pins few given keeps store
  | releases version given gone answer store => exact held.releases given gone answer store
  | writes requests given keeps store => exact held.writes given keeps store

end Holding

/-- **Views are kept as they were pinned.** This holds of every sequence of deeds on an empty store
that answers, with fewer versions given out than there are words. -/
theorem holding (answers : h.Answers) (empty : h.store = .empty) (deeds : List Deed)
    (few : (h.tokens deeds).length < 2 ^ 64) : h.Holding deeds := by
  induction deeds using List.reverseRecOn with
  | nil => exact .nil empty
  | append_singleton deeds d ih =>
    refine (ih ?_).deed (answers.after deeds) d few
    rw [tokens_append_singleton, List.length_append] at few
    omega

end Host

end QueueLedger
