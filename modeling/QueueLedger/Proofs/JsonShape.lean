import Mathlib.Data.List.Nodup
import QueueLedger.Json
/-!
# Shapes of JSON forms

What a writer and a reader of one type owe each other: what is written has a known shape and is read
back, members that the shape does not know change nothing at any depth, and a value is refused if
anywhere in it a record lacks a field that it needs or has one twice, or an integer is out of its
range.

## Proof shape

`Governs shape write read` says all of it. It is closed under lists, nullable values and records, so
that each type needs only a look at its own fields. For a record these are its cells: a field with
the condition that its value is the one of the record that is read (`Cell`). A reader that accepts
exactly if all cells do (`Tabulated`) is governed if every cell is sound (`Tabulated.governs`), and
a cell is sound because the reader of the field is governed (`Governs.required`).
-/

namespace QueueLedger.Json

/-! ### Shapes -/

/-- A field of a record. -/
structure Field (α : Type) where
  /-- The name. -/
  name : String
  /-- Whether it must be present. -/
  needed : Bool
  /-- What its value looks like. -/
  shape : α

/-- What a JSON form looks like. -/
inductive Shape
  /-- An integer below a bound. -/
  | word (bound : Nat)
  /-- A text or a truth value. -/
  | leaf
  /-- Null, or a value of some shape. -/
  | nullable (s : Shape)
  /-- A list of values of one shape. -/
  | list (s : Shape)
  /-- An object with named fields. -/
  | record (fields : List (Field Shape))
  /-- An object of one member, which is named after a variant. -/
  | choice (variants : List (String × Shape))

namespace Shape

/-- A 64-bit word. -/
def u64 : Shape := word UInt64.size

/-- A 32-bit word. -/
def u32 : Shape := word UInt32.size

/-- A byte. -/
def u8 : Shape := word UInt8.size

end Shape

/-- A value has a shape: it has the fields that the shape names and no other ones. -/
inductive Fits : Shape → Json → Prop
  /-- An integer in its range. -/
  | word {bound : Nat} {n : Int} (low : 0 ≤ n) (high : n < bound) : Fits (.word bound) (.int n)
  /-- A text. -/
  | str (s : String) : Fits .leaf (.str s)
  /-- A truth value. -/
  | bool (b : Bool) : Fits .leaf (.bool b)
  /-- Null. -/
  | null {s : Shape} : Fits (.nullable s) .null
  /-- Not null. -/
  | value {s : Shape} {j : Json} (fits : Fits s j) : Fits (.nullable s) j
  /-- A list. -/
  | list {s : Shape} {items : List Json} (each : ∀ j ∈ items, Fits s j) :
      Fits (.list s) (.arr items)
  /-- An object with the named fields. -/
  | record {fields : List (Field Shape)} {members : List (String × Json)} (value : String → Json)
      (names : members.map Prod.fst = fields.map Field.name)
      (found : ∀ f ∈ fields, List.lookup f.name members = some (value f.name))
      (each : ∀ f ∈ fields, Fits f.shape (value f.name)) : Fits (.record fields) (.obj members)
  /-- An object of one member. -/
  | choice {variants : List (String × Shape)} {name : String} {s : Shape} {j : Json}
      (known : (name, s) ∈ variants) (fits : Fits s j) : Fits (.choice variants) (.obj [(name, j)])

/-- The second value is the first one with one member more, which the record that it is put into
does not know. -/
inductive Pads : Shape → Json → Json → Prop
  /-- The member is new in this record. -/
  | here {fields : List (Field Shape)} {name : String} (unknown : ∀ f ∈ fields, f.name ≠ name)
      (value : Json) (before after : List (String × Json)) :
      Pads (.record fields) (.obj (before ++ after)) (.obj (before ++ (name, value) :: after))
  /-- It is in a field. -/
  | field {fields : List (Field Shape)} {f : Field Shape} {j j' : Json} (known : f ∈ fields)
      (inner : Pads f.shape j j') (before after : List (String × Json)) :
      Pads (.record fields) (.obj (before ++ (f.name, j) :: after))
        (.obj (before ++ (f.name, j') :: after))
  /-- It is in an item of a list. -/
  | item {s : Shape} {j j' : Json} (inner : Pads s j j') (before after : List Json) :
      Pads (.list s) (.arr (before ++ j :: after)) (.arr (before ++ j' :: after))
  /-- It is in a value that might have been null. -/
  | value {s : Shape} {j j' : Json} (inner : Pads s j j') : Pads (.nullable s) j j'
  /-- It is in the content of a variant. -/
  | content {variants : List (String × Shape)} {name : String} {s : Shape} {j j' : Json}
      (known : (name, s) ∈ variants) (inner : Pads s j j') :
      Pads (.choice variants) (.obj [(name, j)]) (.obj [(name, j')])

/-- Somewhere a record lacks a field that it needs or has a field twice, or an integer is out of
its range. -/
inductive Faulty : Shape → Json → Prop
  /-- No integer in the range. -/
  | range {bound : Nat} {j : Json} (outside : ∀ n : Int, j = .int n → n < 0 ∨ bound ≤ n) :
      Faulty (.word bound) j
  /-- A field is missing. -/
  | missing {fields : List (Field Shape)} {f : Field Shape} {members : List (String × Json)}
      (known : f ∈ fields) (needed : f.needed = true) (absent : List.lookup f.name members = none) :
      Faulty (.record fields) (.obj members)
  /-- A field is there twice. -/
  | repeated {fields : List (Field Shape)} {f : Field Shape} {members : List (String × Json)}
      (known : f ∈ fields) (twice : 1 < (members.map Prod.fst).count f.name) :
      Faulty (.record fields) (.obj members)
  /-- A field has a fault. -/
  | field {fields : List (Field Shape)} {f : Field Shape} {members : List (String × Json)}
      {j : Json} (known : f ∈ fields) (found : List.lookup f.name members = some j)
      (inner : Faulty f.shape j) : Faulty (.record fields) (.obj members)
  /-- An item of a list has a fault. -/
  | item {s : Shape} {j : Json} {items : List Json} (mem : j ∈ items) (inner : Faulty s j) :
      Faulty (.list s) (.arr items)
  /-- A value that is not null has a fault. -/
  | value {s : Shape} {j : Json} (proper : j ≠ .null) (inner : Faulty s j) : Faulty (.nullable s) j
  /-- The content of a variant has a fault. -/
  | content {variants : List (String × Shape)} {name : String} {s : Shape} {j : Json}
      (known : (name, s) ∈ variants) (inner : Faulty s j) :
      Faulty (.choice variants) (.obj [(name, j)])

/-- Only objects and lists can be padded. -/
theorem Pads.ne_null {s : Shape} {j j' : Json} (h : Pads s j j') : j ≠ .null ∧ j' ≠ .null := by
  induction h with
  | value _ ih => exact ih
  | _ => exact ⟨by simp, by simp⟩

/-! ### Writers and readers -/

/-- A writer and a reader agree on a shape. -/
structure Governs {α : Type} (s : Shape) (write : α → Json) (read : Json → Option α) : Prop where
  /-- What is written has the shape. -/
  fits : ∀ v, Fits s (write v)
  /-- What is written is read back. -/
  read_write : ∀ v, read (write v) = some v
  /-- A member that is not known changes nothing. -/
  pads : ∀ j j', Pads s j j' → read j' = read j
  /-- A value with a missing or repeated field or an integer out of its range is refused. -/
  faulty : ∀ j, Faulty s j → read j = none

theorem asNatBelow_of_faulty {bound : Nat} {j : Json} (h : Faulty (.word bound) j) :
    j.asNatBelow bound = none := by
  obtain ⟨outside⟩ := h
  cases j with
  | int n =>
    rw [asNatBelow, if_neg]
    rcases outside n rfl with negative | large
    · omega
    · omega
  | _ => rfl

theorem governs_u64 : Governs .u64 u64 asU64 where
  fits n := .word (Int.natCast_nonneg _) (Int.ofNat_lt.2 n.toNat_lt_size)
  read_write := asU64_u64
  pads _ _ h := nomatch h
  faulty j h := by
    rw [asU64, asNatBelow_of_faulty h]
    rfl

theorem governs_u32 : Governs .u32 u32 asU32 where
  fits n := .word (Int.natCast_nonneg _) (Int.ofNat_lt.2 n.toNat_lt_size)
  read_write := asU32_u32
  pads _ _ h := nomatch h
  faulty j h := by
    rw [asU32, asNatBelow_of_faulty h]
    rfl

theorem governs_u8 : Governs .u8 u8 asU8 where
  fits n := .word (Int.natCast_nonneg _) (Int.ofNat_lt.2 n.toNat_lt_size)
  read_write := asU8_u8
  pads _ _ h := nomatch h
  faulty j h := by
    rw [asU8, asNatBelow_of_faulty h]
    rfl

/-- A type without inner structure is governed if it is written as a text or truth value and read
back. -/
theorem governs_leaf {α : Type} {write : α → Json} {read : Json → Option α}
    (fits : ∀ v, Fits .leaf (write v)) (read_write : ∀ v, read (write v) = some v) :
    Governs .leaf write read where
  fits := fits
  read_write := read_write
  pads _ _ h := nomatch h
  faulty _ h := nomatch h

variable {α : Type} {s : Shape} {write : α → Json} {read : Json → Option α}

/-! ### Lists and nullable values -/

theorem asList_of_none {items : List Json} {j : Json} (mem : j ∈ items) (refused : read j = none) :
    (arr items).asList read = none := by
  rw [asList]
  induction items with
  | nil => cases mem
  | cons first items ih =>
    rcases List.mem_cons.1 mem with rfl | later
    · simp [refused]
    · simp [ih later]

theorem Governs.list (h : Governs s write read) :
    Governs (.list s) (fun vs => .arr (vs.map write)) (asList read) where
  fits vs := .list fun j mem => by
    obtain ⟨v, -, rfl⟩ := List.mem_map.1 mem
    exact h.fits v
  read_write vs := by
    rw [asList]
    induction vs with
    | nil => rfl
    | cons v vs ih => simp [h.read_write, ih]
  pads j j' padded := by
    cases padded with
    | item inner before after => simp [asList, List.mapM_append, h.pads _ _ inner]
  faulty j fault := by
    cases fault with
    | item mem inner => exact asList_of_none mem (h.faulty _ inner)

/-- An optional value, null when absent. -/
def nullableOf (write : α → Json) : Option α → Json
  | some v => write v
  | none => null

theorem asNullable_of_ne {j : Json} (proper : j ≠ .null) :
    j.asNullable read = (read j).map some := by
  cases j with
  | null => exact absurd rfl proper
  | _ => rfl

theorem Governs.nullable (h : Governs s write read) (proper : ∀ v, write v ≠ .null) :
    Governs (.nullable s) (nullableOf write) (asNullable read) where
  fits v := by
    cases v with
    | none => exact .null
    | some v => exact .value (h.fits v)
  read_write v := by
    cases v with
    | none => rfl
    | some v => rw [nullableOf, asNullable_of_ne (proper v), h.read_write, Option.map_some]
  pads j j' padded := by
    cases padded with
    | value inner =>
      rw [asNullable_of_ne inner.ne_null.1, asNullable_of_ne inner.ne_null.2, h.pads _ _ inner]
  faulty j fault := by
    cases fault with
    | value proper inner => rw [asNullable_of_ne proper, h.faulty _ inner, Option.map_none]

/-! ### Records -/

/-- A field of a record, for one record: what is written there, and which values stand for the
same. -/
structure Cell extends Field Shape where
  /-- What is written. -/
  written : Json
  /-- Whether the value that is found, if one is, stands for the same. -/
  accepts : Option Json → Prop

/-- A cell is in order if it accepts what is written and nothing that is faulty. -/
structure Cell.Sound (c : Cell) : Prop where
  /-- What is written has the shape of the field. -/
  fits : Fits c.shape c.written
  /-- What is written is accepted. -/
  accepted : c.accepts (some c.written)
  /-- A member that is not known changes nothing. -/
  pads : ∀ j j', Pads c.shape j j' → (c.accepts (some j') ↔ c.accepts (some j))
  /-- What is faulty is refused. -/
  faulty : ∀ j, Faulty c.shape j → ¬ c.accepts (some j)
  /-- A field that is needed must be there. -/
  missing : c.needed = true → ¬ c.accepts none

namespace Cell

/-- The cell of a field that must be present. -/
def required (name : String) (s : Shape) (write : α → Json) (read : Json → Option α) (v : α) :
    Cell :=
  ⟨⟨name, true, s⟩, write v, fun j => Json.required read j = some v⟩

/-- The cell of a field that may be missing or null. -/
def optional (name : String) (s : Shape) (write : α → Json) (read : Json → Option α)
    (v : Option α) : Cell :=
  ⟨⟨name, false, .nullable s⟩, nullableOf write v, fun j => Json.optional read j = some v⟩

/-- The cell of a field that is replaced when missing. -/
def defaulted (name : String) (s : Shape) (write : α → Json) (read : Json → Option α)
    (standard v : α) : Cell :=
  ⟨⟨name, false, s⟩, write v, fun j => Json.defaulted read standard j = some v⟩

end Cell

theorem Governs.required (h : Governs s write read) (name : String) (v : α) :
    (Cell.required name s write read v).Sound where
  fits := h.fits v
  accepted := h.read_write v
  pads j j' padded := by simp [Cell.required, h.pads j j' padded]
  faulty j fault := by simp [Cell.required, h.faulty j fault]
  missing _ := by simp [Cell.required, Json.required]

theorem Governs.optional (h : Governs s write read) (proper : ∀ v, write v ≠ .null) (name : String)
    (v : Option α) : (Cell.optional name s write read v).Sound where
  fits := (h.nullable proper).fits v
  accepted := (h.nullable proper).read_write v
  pads j j' padded := by simp [Cell.optional, Json.optional, (h.nullable proper).pads j j' padded]
  faulty j fault := by simp [Cell.optional, Json.optional, (h.nullable proper).faulty j fault]
  missing needed := nomatch needed

theorem Governs.defaulted (h : Governs s write read) (name : String) (standard v : α) :
    (Cell.defaulted name s write read standard v).Sound where
  fits := h.fits v
  accepted := h.read_write v
  pads j j' padded := by simp [Cell.defaulted, h.pads j j' padded]
  faulty j fault := by simp [Cell.defaulted, h.faulty j fault]
  missing needed := nomatch needed

/-- With distinct names, each member is found under its name. -/
theorem lookup_of_mem {name : String} {j : Json} {members : List (String × Json)}
    (distinct : (members.map Prod.fst).Nodup) (mem : (name, j) ∈ members) :
    List.lookup name members = some j := by
  induction members with
  | nil => cases mem
  | cons first members ih =>
    obtain ⟨notMem, distinct⟩ := List.nodup_cons.1 distinct
    rcases List.mem_cons.1 mem with rfl | later
    · exact List.lookup_cons_self
    · have other : (name == first.1) = false :=
        beq_false_of_ne fun same => notMem (same ▸ List.mem_map_of_mem later)
      rw [List.lookup_cons, other]
      exact ih distinct later

/-- A member between others is found only under its name. -/
theorem lookup_middle (name other : String) (j : Json) (before after : List (String × Json)) :
    List.lookup name (before ++ (other, j) :: after) =
      if name = other then (List.lookup name before).or (some j)
      else List.lookup name (before ++ after) := by
  rw [List.lookup_append, List.lookup_append, List.lookup_cons]
  by_cases same : name = other
  · simp [same]
  · rw [if_neg same, beq_false_of_ne same]

/-- One member more does not count if its name is not asked for, or not there yet. -/
theorem once_insert {names : List String} {name : String} {j : Json}
    {before after : List (String × Json)}
    (new : name ∈ names → List.lookup name (before ++ after) = none) :
    once names (before ++ (name, j) :: after) = once names (before ++ after) := by
  rw [Bool.eq_iff_iff, once, once, List.all_eq_true, List.all_eq_true]
  refine forall₂_congr fun other mem => ?_
  by_cases same : name = other
  · subst same
    have absent : (List.map Prod.fst (before ++ after)).count name = 0 := by
      refine List.count_eq_zero.2 fun there => ?_
      obtain ⟨m, mem', rfl⟩ := List.mem_map.1 there
      simpa using List.lookup_eq_none_iff.1 (new mem) m mem'
    simp only [List.map_append, List.map_cons, List.count_append, List.count_cons_self] at absent ⊢
    simp only [decide_eq_true_eq]
    omega
  · simp only [List.map_append, List.map_cons, List.count_append, List.count_cons_of_ne same]

/-- What cells write. -/
def Cell.members (cells : List Cell) : List (String × Json) :=
  cells.map fun c => (c.name, c.written)

/-- A record is written cell by cell, and read from an object exactly if no field is given twice
and each cell accepts what is found under its name. -/
structure Tabulated (names : List String) (fields : List (Field Shape)) (cells : α → List Cell)
    (write : α → Json) (read : Json → Option α) : Prop where
  /-- The fields have those names. -/
  labels : fields.map Field.name = names
  /-- The names are different. -/
  distinct : names.Nodup
  /-- The cells of each record are those fields. -/
  same : ∀ v, (cells v).map Cell.toField = fields
  /-- Every cell is in order. -/
  sound : ∀ v, ∀ c ∈ cells v, c.Sound
  /-- What is written. -/
  writes : ∀ v, write v = .obj (Cell.members (cells v))
  /-- No field may be given twice. -/
  refuses : ∀ ms, once names ms = false → read (.obj ms) = none
  /-- What is read. -/
  reads : ∀ ms v, once names ms = true →
    (read (.obj ms) = some v ↔ ∀ c ∈ cells v, c.accepts (List.lookup c.name ms))

namespace Tabulated

variable {names : List String} {fields : List (Field Shape)} {cells : α → List Cell}

theorem names_members (h : Tabulated names fields cells write read) (v : α) :
    (Cell.members (cells v)).map Prod.fst = names := by
  rw [← h.labels, ← h.same v, Cell.members, List.map_map, List.map_map]
  rfl

theorem nodup_members (h : Tabulated names fields cells write read) (v : α) :
    ((Cell.members (cells v)).map Prod.fst).Nodup := by
  rw [h.names_members]
  exact h.distinct

theorem nodup_fields (h : Tabulated names fields cells write read) :
    (fields.map Field.name).Nodup := by
  rw [h.labels]
  exact h.distinct

theorem mem_names (h : Tabulated names fields cells write read) {f : Field Shape}
    (known : f ∈ fields) : f.name ∈ names :=
  h.labels ▸ List.mem_map_of_mem known

/-- Every cell finds what it writes. -/
theorem found (h : Tabulated names fields cells write read) {v : α} {c : Cell} (mem : c ∈ cells v) :
    List.lookup c.name (Cell.members (cells v)) = some c.written :=
  lookup_of_mem (h.nodup_members v) (List.mem_map_of_mem mem)

theorem mem_fields (h : Tabulated names fields cells write read) {v : α} {c : Cell}
    (mem : c ∈ cells v) : c.toField ∈ fields :=
  h.same v ▸ List.mem_map_of_mem mem

theorem exists_cell (h : Tabulated names fields cells write read) (v : α) {f : Field Shape}
    (known : f ∈ fields) : ∃ c ∈ cells v, c.toField = f := by
  rw [← h.same v] at known
  exact List.mem_map.1 known

theorem fits (h : Tabulated names fields cells write read) (v : α) :
    Fits (.record fields) (write v) := by
  rw [h.writes]
  refine .record (fun name => (List.lookup name (Cell.members (cells v))).getD .null)
    ((h.names_members v).trans h.labels.symm)
    (fun f known => ?_) (fun f known => ?_)
  · obtain ⟨c, mem, rfl⟩ := h.exists_cell v known
    rw [h.found mem, Option.getD_some]
  · obtain ⟨c, mem, rfl⟩ := h.exists_cell v known
    rw [h.found mem, Option.getD_some]
    exact (h.sound v c mem).fits

/-- No field is written twice. -/
theorem once (h : Tabulated names fields cells write read) (v : α) :
    Json.once names (Cell.members (cells v)) = true :=
  once_of_nodup _ (h.nodup_members v)

theorem read_write (h : Tabulated names fields cells write read) (v : α) :
    read (write v) = some v := by
  rw [h.writes, h.reads _ _ (h.once v)]
  intro c mem
  rw [h.found mem]
  exact (h.sound v c mem).accepted

/-- A cell whose name has something in it that is padded accepts it as before. -/
theorem accepts_iff (h : Tabulated names fields cells write read) {v : α} {c : Cell}
    (mem : c ∈ cells v) {f : Field Shape} (known : f ∈ fields) {j j' : Json}
    (inner : Pads f.shape j j') (before after : List (String × Json)) :
    c.accepts (List.lookup c.name (before ++ (f.name, j') :: after)) ↔
      c.accepts (List.lookup c.name (before ++ (f.name, j) :: after)) := by
  rw [lookup_middle, lookup_middle]
  split
  next name =>
    obtain rfl := List.inj_on_of_nodup_map h.nodup_fields (h.mem_fields mem) known name
    cases List.lookup c.name before with
    | none => exact (h.sound v c mem).pads _ _ inner
    | some earlier => rfl
  next => rfl

/-- Two objects that the cells do not tell apart are read alike, if both of them or none gives a
field twice. -/
theorem read_congr (h : Tabulated names fields cells write read) {ms ms' : List (String × Json)}
    (unique : Json.once names ms' = Json.once names ms)
    (alike : ∀ v, ∀ c ∈ cells v,
      (c.accepts (List.lookup c.name ms') ↔ c.accepts (List.lookup c.name ms))) :
    read (.obj ms') = read (.obj ms) := by
  cases given : Json.once names ms with
  | false => rw [h.refuses _ given, h.refuses _ (unique.trans given)]
  | true =>
    refine Option.ext fun v => ?_
    rw [h.reads _ _ given, h.reads _ _ (unique.trans given)]
    exact forall₂_congr (alike v)

theorem pads (h : Tabulated names fields cells write read) (j j' : Json)
    (padded : Pads (.record fields) j j') : read j' = read j := by
  cases padded with
  | here unknown value before after =>
    refine h.read_congr (once_insert fun mem => ?_) fun v c mem => ?_
    · rw [← h.labels] at mem
      obtain ⟨f, known, same⟩ := List.mem_map.1 mem
      exact absurd same (unknown f known)
    · rw [lookup_middle, if_neg (unknown _ (h.mem_fields mem))]
  | field known inner before after =>
    refine h.read_congr ?_ fun v c mem => h.accepts_iff mem known inner before after
    simp only [Json.once, List.map_append, List.map_cons]

theorem once_of_read (h : Tabulated names fields cells write read) {ms : List (String × Json)}
    {v : α} (given : read (.obj ms) = some v) : Json.once names ms = true := by
  cases unique : Json.once names ms with
  | false => simp [h.refuses _ unique] at given
  | true => rfl

theorem accepts_of_read (h : Tabulated names fields cells write read) {ms : List (String × Json)}
    {v : α} (given : read (.obj ms) = some v) {c : Cell} (mem : c ∈ cells v) :
    c.accepts (List.lookup c.name ms) :=
  (h.reads _ _ (h.once_of_read given)).1 given c mem

theorem faulty (h : Tabulated names fields cells write read) (j : Json)
    (fault : Faulty (.record fields) j) : read j = none := by
  rw [Option.eq_none_iff_forall_ne_some]
  intro v given
  cases fault with
  | missing known needed absent =>
    obtain ⟨c, mem, rfl⟩ := h.exists_cell v known
    have accepted := h.accepts_of_read given mem
    rw [absent] at accepted
    exact (h.sound v c mem).missing needed accepted
  | repeated known twice =>
    have limit := List.all_eq_true.1 (h.once_of_read given) _ (h.mem_names known)
    exact absurd twice (Nat.not_lt.2 (of_decide_eq_true limit))
  | field known found inner =>
    obtain ⟨c, mem, rfl⟩ := h.exists_cell v known
    have accepted := h.accepts_of_read given mem
    rw [found] at accepted
    exact (h.sound v c mem).faulty _ inner accepted

/-- A record that is written and read cell by cell is governed. -/
theorem governs (h : Tabulated names fields cells write read) :
    Governs (.record fields) write read :=
  ⟨h.fits, h.read_write, h.pads, h.faulty⟩

end Tabulated

/-! ### Objects with some of the members -/

/-- An object with some of the members has those, in whatever order. -/
theorem lookup_of_subset {ms given : List (String × Json)} (distinct : (ms.map Prod.fst).Nodup)
    (sub : given ⊆ ms) (name : String) :
    List.lookup name given = if name ∈ given.map Prod.fst then List.lookup name ms else none := by
  induction given with
  | nil => rfl
  | cons first given ih =>
    obtain ⟨here, later⟩ := List.cons_subset.1 sub
    obtain ⟨n, j⟩ := first
    rw [List.lookup_cons, List.map_cons]
    by_cases same : name = n
    · subst same
      simp [lookup_of_mem distinct here]
    · rw [beq_false_of_ne same, ih later]
      simp only [List.mem_cons, same, false_or]

variable {ms given : List (String × Json)} {name : String}

/-- Where it has a member, the value is read, and else replaced. -/
theorem Governs.defaulted_of_subset (h : Governs s write read) (distinct : (ms.map Prod.fst).Nodup)
    (sub : given ⊆ ms) {v : α} (found : List.lookup name ms = some (write v)) (standard : α) :
    Json.defaulted read standard (List.lookup name given) =
      some (if name ∈ given.map Prod.fst then v else standard) := by
  rw [lookup_of_subset distinct sub]
  split
  · rw [found]
    exact h.read_write v
  · rfl

/-- Where it has no member, the value is absent. -/
theorem Governs.optional_of_subset (h : Governs s write read) (proper : ∀ v, write v ≠ .null)
    (distinct : (ms.map Prod.fst).Nodup) (sub : given ⊆ ms) {v : Option α}
    (found : List.lookup name ms = some (nullableOf write v)) :
    Json.optional read (List.lookup name given) =
      some (if name ∈ given.map Prod.fst then v else none) := by
  rw [lookup_of_subset distinct sub]
  split
  · rw [found]
    exact (h.nullable proper).read_write v
  · rfl

end QueueLedger.Json
