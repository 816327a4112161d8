import QueueLedger.Bytes.Hex
/-!
# Reading hexadecimal text

A byte is written as two lowercase digits. The lax rule of `Hex.pair?` reads it back from two digits
in either case, and it also takes a plus sign in the place of a leading zero. So the texts that are
read are those of `Paired`, and what is read prints as the text in its plain form: in lowercase,
with a zero for each plus sign (`chars_of_readPairs`).
-/

namespace QueueLedger.Hex

/-- A hexadecimal digit in either case. -/
def IsDigit (c : Char) : Prop :=
  ('0' ≤ c ∧ c ≤ '9') ∨ ('a' ≤ c ∧ c ≤ 'f') ∨ ('A' ≤ c ∧ c ≤ 'F')

instance (c : Char) : Decidable (IsDigit c) := inferInstanceAs (Decidable (_ ∨ _ ∨ _))

/-- The character that is printed in the place of one that was read. -/
def plain (c : Char) : Char := if c = '+' then '0' else c.toLower

/-- Pairs of digits, where the first one of a pair may be a plus sign. -/
def Paired (cs : List Char) : Prop :=
  cs.length % 2 = 0 ∧ ∀ i c, cs[i]? = some c → IsDigit c ∨ (c = '+' ∧ i % 2 = 0)

variable {c hi lo : Char} {cs : List Char} {b : Bytes}

/-! ### One digit -/

theorem isDigit_iff : IsDigit c ↔
    (48 ≤ c.toNat ∧ c.toNat ≤ 57) ∨ (97 ≤ c.toNat ∧ c.toNat ≤ 102) ∨
      (65 ≤ c.toNat ∧ c.toNat ≤ 70) := by
  simp only [IsDigit, Char.le_def, UInt32.le_iff_toNat_le]
  rfl

theorem isSome_digit? : (digit? c).isSome ↔ IsDigit c := by
  rw [isDigit_iff]
  unfold digit?
  dsimp only
  split
  · simp [*]
  · split
    · simp [*]
    · split <;> simp [*]

/-- A digit that is read prints in lowercase. -/
theorem digit_of_digit? {n : Nat} (read : digit? c = some n) : n < 16 ∧ digit n = c.toLower := by
  -- The digits are among the first 103 characters.
  have all : ∀ k : Fin 103, ((digit? (Char.ofNat k)).all fun n =>
      decide (n < 16) && digit n == (Char.ofNat k).toLower) = true := by decide +kernel
  have bound : c.toNat < 103 := by
    have digit := isDigit_iff.1 (isSome_digit?.1 (Option.isSome_of_mem read))
    omega
  have this := all ⟨c.toNat, bound⟩
  simpa [Char.ofNat_toNat, read] using this

theorem not_isDigit_plus : ¬ IsDigit '+' := by decide

theorem plain_of_isDigit (digit : IsDigit c) : plain c = c.toLower := by
  refine if_neg ?_
  rintro rfl
  exact not_isDigit_plus digit

theorem lt_of_isDigit (digit : IsDigit c) : c.toNat < 128 := by
  rw [isDigit_iff] at digit
  omega

/-! ### A pair -/

theorem isSome_pair? : (pair? hi lo).isSome ↔ (IsDigit hi ∨ hi = '+') ∧ IsDigit lo := by
  unfold pair?
  split
  next plus => simp [plus, isSome_digit?]
  next sign =>
    simp only [sign, or_false, ← isSome_digit?, byte?]
    cases digit? hi <;> cases digit? lo <;> simp

/-- A byte that is read prints as the plain form of its pair. -/
theorem digits_of_pair? {d : UInt8} (read : pair? hi lo = some d) :
    digit (d.toNat / 16) = plain hi ∧ digit (d.toNat % 16) = plain lo := by
  have digits := isSome_pair?.1 (Option.isSome_of_mem read)
  rw [plain_of_isDigit digits.2]
  unfold pair? at read
  split at read
  next plus =>
    obtain ⟨n, low, rfl⟩ := Option.map_eq_some_iff.1 read
    obtain ⟨small, prints⟩ := digit_of_digit? low
    have value : (UInt8.ofNat n).toNat = n := by
      rw [UInt8.toNat_ofNat']
      omega
    rw [value, Nat.div_eq_of_lt small, Nat.mod_eq_of_lt small, plus]
    exact ⟨rfl, prints⟩
  next sign =>
    rw [plain_of_isDigit (digits.1.resolve_right sign)]
    unfold byte? at read
    split at read
    next h l high low =>
      cases read
      obtain ⟨small, prints⟩ := digit_of_digit? high
      obtain ⟨small', prints'⟩ := digit_of_digit? low
      have value : (UInt8.ofNat (16 * h + l)).toNat = 16 * h + l := by
        rw [UInt8.toNat_ofNat']
        omega
      have first : (16 * h + l) / 16 = h := by omega
      have second : (16 * h + l) % 16 = l := by omega
      rw [value, first, second]
      exact ⟨prints, prints'⟩
    next => cases read

/-- The digits of a byte are read by the lax rule too: none of them is a plus sign. -/
theorem pair?_digits (d : UInt8) :
    pair? (digit (d.toNat / 16)) (digit (d.toNat % 16)) = some d := by
  have unsigned : ∀ n : Fin 16, digit n ≠ '+' := by decide
  have small : d.toNat / 16 < 16 := by
    have := d.toNat_lt
    omega
  rw [pair?, if_neg (unsigned ⟨d.toNat / 16, small⟩), byte?_digits]

/-! ### A text -/

theorem paired_cons_cons : Paired (hi :: lo :: cs) ↔
    ((IsDigit hi ∨ hi = '+') ∧ IsDigit lo) ∧ Paired cs := by
  have parity : (hi :: lo :: cs).length % 2 = cs.length % 2 := by
    simp only [List.length_cons]
    omega
  rw [Paired, Paired, parity]
  constructor
  · rintro ⟨even, each⟩
    have first := each 0 hi rfl
    have second := each 1 lo rfl
    refine ⟨⟨by simpa using first, by simpa using second⟩, even, fun i c here => ?_⟩
    have later := each (i + 2) c (by simpa using here)
    simpa using later
  · rintro ⟨⟨first, second⟩, even, each⟩
    refine ⟨even, fun i c here => ?_⟩
    match i with
    | 0 =>
      cases here
      simpa using first
    | 1 =>
      cases here
      exact Or.inl second
    | i + 2 =>
      have later := each i c (by simpa using here)
      simpa using later

/-- The lax rule reads pairs, and nothing else. -/
theorem isSome_readPairs : (cs : List Char) → ((readPairs pair? cs).isSome ↔ Paired cs)
  | [] => by simp [readPairs, Paired]
  | [c] => by simp [readPairs, Paired]
  | hi :: lo :: cs => by
    rw [paired_cons_cons, ← isSome_pair?, ← isSome_readPairs cs, readPairs]
    cases pair? hi lo <;> simp

/-- A text of pairs is all ASCII. -/
theorem Paired.ascii (paired : Paired cs) : ∀ c ∈ cs, c.toNat < 128 := by
  intro c hc
  obtain ⟨i, here⟩ := List.mem_iff_getElem?.1 hc
  rcases paired.2 i c here with digit | ⟨rfl, -⟩
  · exact lt_of_isDigit digit
  · decide

/-- What is read prints as the plain form of the text. -/
theorem chars_of_readPairs (read : readPairs pair? cs = some b) : chars b = cs.map plain := by
  fun_induction readPairs pair? cs generalizing b with
  | case1 =>
    cases read
    rfl
  | case2 => cases read
  | case3 => cases read
  | case4 hi lo cs d pair ih =>
    obtain ⟨b', rest, rfl⟩ := Option.map_eq_some_iff.1 read
    obtain ⟨first, second⟩ := digits_of_pair? pair
    have step : chars (d :: b') = digit (d.toNat / 16) :: digit (d.toNat % 16) :: chars b' := rfl
    rw [step, first, second, ih rest]
    rfl

/-- A text of ASCII characters has as many bytes as characters. -/
theorem utf8ByteSize_of_ascii {s : String} (ascii : ∀ c ∈ s.toList, c.toNat < 128) :
    s.utf8ByteSize = s.length := by
  obtain ⟨cs, rfl⟩ : ∃ cs, s = String.ofList cs := ⟨s.toList, String.ofList_toList.symm⟩
  rw [String.toList_ofList] at ascii
  induction cs with
  | nil => rfl
  | cons c cs ih =>
    obtain ⟨first, rest⟩ := List.forall_mem_cons.1 ascii
    have single : c.utf8Size = 1 := by
      rw [Char.utf8Size_eq_one_iff, UInt32.le_iff_toNat_le]
      exact Nat.le_of_lt_succ first
    rw [String.ofList_cons, String.utf8ByteSize_append, String.length_append, ih rest,
      String.utf8ByteSize_singleton, single, String.length_singleton]

end QueueLedger.Hex
