/-!
# JSON values

Configuration, logged operations and snapshots have JSON forms. This module holds the
values and the rules for reading fields out of them.

Design points:

* Integers are exact. A number that is written with a fraction or an exponent is a
  `decimal`, even if its value is whole, and no integer field accepts it.
* A record is an object, read by field name with unknown members ignored, or the list of
  its fields in order. `members` lists the values of the named fields either way, so a
  record's reader does not care which form it was given. An object that gives a field twice
  has no such list.
* A missing field is `none`: `required` refuses it, `optional` accepts it and the JSON
  null, `defaulted` replaces it and refuses null.
-/

namespace QueueLedger

/-- A JSON value. -/
inductive Json
  /-- The null value. -/
  | null
  /-- A truth value. -/
  | bool (b : Bool)
  /-- A number written without fraction and exponent. -/
  | int (n : Int)
  /-- Any other number, as written. -/
  | decimal (text : String)
  /-- A text. -/
  | str (s : String)
  /-- A list. -/
  | arr (items : List Json)
  /-- An object, as its members in order. -/
  | obj (fields : List (String × Json))
  deriving Inhabited

namespace Json

/-! ### Writing -/

/-- A natural number. -/
def nat (n : Nat) : Json := int n

/-- A 64-bit word. -/
def u64 (n : UInt64) : Json := nat n.toNat

/-- A 32-bit word. -/
def u32 (n : UInt32) : Json := nat n.toNat

/-- A byte. -/
def u8 (n : UInt8) : Json := nat n.toNat

/-- An optional 64-bit word, null when absent. -/
def u64? : Option UInt64 → Json
  | some n => u64 n
  | none => null

/-- An optional text, null when absent. -/
def str? : Option String → Json
  | some s => str s
  | none => null

/-! ### Reading values -/

/-- An integer below a bound. -/
def asNatBelow (bound : Nat) : Json → Option Nat
  | int n => if 0 ≤ n ∧ n < bound then some n.toNat else none
  | _ => none

/-- A 64-bit word. -/
def asU64 (j : Json) : Option UInt64 := (j.asNatBelow UInt64.size).map UInt64.ofNat

/-- A 32-bit word. -/
def asU32 (j : Json) : Option UInt32 := (j.asNatBelow UInt32.size).map UInt32.ofNat

/-- A byte. -/
def asU8 (j : Json) : Option UInt8 := (j.asNatBelow UInt8.size).map UInt8.ofNat

/-- A truth value. -/
def asBool : Json → Option Bool
  | bool b => some b
  | _ => none

/-- A text. -/
def asStr : Json → Option String
  | str s => some s
  | _ => none

/-- A list whose items are all readable. -/
def asList {α : Type} (read : Json → Option α) : Json → Option (List α)
  | arr items => items.mapM read
  | _ => none

/-- Null, or a readable value. -/
def asNullable {α : Type} (read : Json → Option α) : Json → Option (Option α)
  | null => some none
  | j => (read j).map some

/-! ### Reading records -/

/-- Whether no field is given twice. Other members may be. -/
def once (names : List String) (fields : List (String × Json)) : Bool :=
  names.all fun name => (fields.map Prod.fst).count name ≤ 1

/-- The values of named fields in an object. -/
def named (names : List String) (fields : List (String × Json)) : Option (List (Option Json)) :=
  if once names fields then some (names.map fun name => List.lookup name fields) else none

/-- The values of the fields of a record that has to be complete: by name in an object, by
position in a list of as many items. -/
def members (names : List String) : Json → Option (List (Option Json))
  | obj fields => named names fields
  | arr items => if items.length = names.length then some (items.map some) else none
  | _ => none

/-- The values of the fields of a record that may be incomplete: a list may stop early. -/
def partialMembers (names : List String) : Json → Option (List (Option Json))
  | obj fields => named names fields
  | arr items =>
    if items.length ≤ names.length then
      some (items.map some ++ List.replicate (names.length - items.length) none)
    else none
  | _ => none

/-- If all members have different names, none is given twice. -/
theorem once_of_nodup (names : List String) {fields : List (String × Json)}
    (distinct : (fields.map Prod.fst).Nodup) : once names fields = true :=
  List.all_eq_true.2 fun name _ => decide_eq_true (List.nodup_iff_count.1 distinct name)

theorem named_of_once {names : List String} {fields : List (String × Json)}
    (unique : once names fields = true) :
    named names fields = some (names.map fun name => List.lookup name fields) :=
  if_pos unique

theorem named_of_twice {names : List String} {fields : List (String × Json)}
    (twice : once names fields = false) : named names fields = none :=
  if_neg (Bool.eq_false_iff.1 twice)

theorem named_of_nodup (names : List String) {fields : List (String × Json)}
    (distinct : (fields.map Prod.fst).Nodup) :
    named names fields = some (names.map fun name => List.lookup name fields) :=
  named_of_once (once_of_nodup names distinct)

/-- A field that must be present. -/
def required {α : Type} (read : Json → Option α) : Option Json → Option α
  | some j => read j
  | none => none

/-- A field that may be missing or null. -/
def optional {α : Type} (read : Json → Option α) : Option Json → Option (Option α)
  | some j => j.asNullable read
  | none => some none

/-- A field that is replaced when missing, and may not be null. -/
def defaulted {α : Type} (read : Json → Option α) (value : α) : Option Json → Option α
  | some j => read j
  | none => some value

@[simp] theorem required_some {α : Type} (read : Json → Option α) (j : Json) :
    required read (some j) = read j := by simp only [required]

@[simp] theorem defaulted_some {α : Type} (read : Json → Option α) (value : α) (j : Json) :
    defaulted read value (some j) = read j := by simp only [defaulted]

/-- The name of a variant and its content: a text alone, or an object of one member. -/
def variant : Json → Option (String × Option Json)
  | str name => some (name, none)
  | obj [(name, content)] => some (name, some content)
  | _ => none

/-- A variant without content, which may also be written with null as its content. -/
def unitVariant (j : Json) : Option String :=
  match j.variant with
  | some (name, none) => some name
  | some (name, some null) => some name
  | _ => none

@[simp] theorem asBool_bool (b : Bool) : (bool b).asBool = some b := rfl

@[simp] theorem asStr_str (s : String) : (str s).asStr = some s := rfl

@[simp] theorem asU64_u64 (n : UInt64) : (u64 n).asU64 = some n := by
  have h : n.toNat < UInt64.size := n.toNat_lt_size
  simp only [asU64, u64, nat, asNatBelow]
  rw [if_pos ⟨by omega, by omega⟩]
  simp

@[simp] theorem asU32_u32 (n : UInt32) : (u32 n).asU32 = some n := by
  have h : n.toNat < UInt32.size := n.toNat_lt_size
  simp only [asU32, u32, nat, asNatBelow]
  rw [if_pos ⟨by omega, by omega⟩]
  simp

@[simp] theorem asU8_u8 (n : UInt8) : (u8 n).asU8 = some n := by
  have h : n.toNat < UInt8.size := n.toNat_lt_size
  simp only [asU8, u8, nat, asNatBelow]
  rw [if_pos ⟨by omega, by omega⟩]
  simp

end Json

end QueueLedger
