import QueueLedger.Proofs.RecordCodecs
/-!
# Texts of receipts

A consumer hands a receipt back as text. The printed form has 72 digits, and so it is asked for, but
pairs of characters are read by the lax rule of `Hex.pair?`. So a plus sign is taken for a zero in
the first place of a pair (`Receipt.parse_accepts_plus`), and one delivery has more texts than those
in upper and lower case. That is all the freedom there is (`Receipt.parse_accepts`).
-/

namespace QueueLedger.Receipt

variable {t t' : String} {r r' : Receipt}

theorem parse_accepts_iff : (∃ r, parse t = .ok r) ↔ t.length = 72 ∧ Hex.Paired t.toList := by
  constructor
  · rintro ⟨r, read⟩
    obtain ⟨length, pairs⟩ := parse_eq_ok_iff.1 read
    exact ⟨length, (Hex.isSome_readPairs t.toList).1 (Option.isSome_of_mem pairs)⟩
  · rintro ⟨length, paired⟩
    obtain ⟨b, pairs⟩ := Option.isSome_iff_exists.1 ((Hex.isSome_readPairs t.toList).2 paired)
    have bytes : b.length = width := by
      have twice := congrArg List.length (Hex.chars_of_readPairs pairs)
      rw [Hex.length_chars, List.length_map, String.length_toList, length] at twice
      rw [width]
      omega
    obtain ⟨r, rfl⟩ := exists_encode bytes
    exact ⟨r, parse_eq_ok_iff.2 ⟨length, pairs⟩⟩

/-- An accepted text prints in its plain form. -/
theorem text_of_parse (read : parse t = .ok r) : r.text = t.map Hex.plain := by
  obtain ⟨-, pairs⟩ := parse_eq_ok_iff.1 read
  rw [text, Hex.encode, Hex.chars_of_readPairs pairs, ← String.toList_map, String.ofList_toList]

theorem text_inj : r.text = r'.text ↔ r = r' := by
  refine ⟨fun same => ?_, fun h => by rw [h]⟩
  have read := parse_text r
  rw [same, parse_text r'] at read
  cases read
  rfl

/-- A text is read as the receipt that prints in its plain form. -/
theorem parse_of_plain (length : t.length = 72)
    (pairs : (Hex.readPairs Hex.pair? t.toList).isSome = true)
    (plain : t.map Hex.plain = r.text) : parse t = .ok r := by
  obtain ⟨r', read⟩ := parse_accepts_iff.2 ⟨length, (Hex.isSome_readPairs t.toList).1 pairs⟩
  rw [read, text_inj.1 ((text_of_parse read).trans plain)]

/-- A text that is not accepted is refused as a faulty record. -/
theorem parse_refuses (refused : ¬ ∃ r, parse t = .ok r) :
    ∃ fault, parse t = .error (.decode what fault) := by
  unfold parse at refused ⊢
  split
  next checked =>
    rw [if_pos checked] at refused
    split
    next b pairs =>
      rw [pairs] at refused
      exact exact.refuses b (mt (exact.accepts b).2 refused)
    next => exact ⟨_, rfl⟩
  next => exact ⟨_, rfl⟩

/-- **Which texts denote which receipts.** A text is accepted exactly if it has 72 characters, each
of which is a digit in either case, or a plus sign in the first place of a pair. It then denotes the
receipt whose printed form is the text in lowercase with a zero for each plus sign, and two accepted
texts denote one receipt exactly if they agree in this form. All other texts are refused as faulty
records. So among texts without a plus sign those of 72 digits are accepted, and they print in
lowercase. -/
theorem parse_accepts (t : String) :
    ((∃ r, parse t = .ok r) ↔ t.length = 72 ∧
      ∀ i c, t.toList[i]? = some c → Hex.IsDigit c ∨ (c = '+' ∧ i % 2 = 0)) ∧
    (∀ r, parse t = .ok r → r.text = t.map Hex.plain) ∧
    ((¬ ∃ r, parse t = .ok r) → ∃ fault, parse t = .error (.decode what fault)) ∧
    (∀ t' r r', parse t = .ok r → parse t' = .ok r' →
      (r = r' ↔ t.map Hex.plain = t'.map Hex.plain)) ∧
    ('+' ∉ t.toList →
      ((∃ r, parse t = .ok r) ↔ t.length = 72 ∧ ∀ c ∈ t.toList, Hex.IsDigit c) ∧
      ∀ r, parse t = .ok r → r.text = t.toLower) := by
  have accepted : (∃ r, parse t = .ok r) ↔ t.length = 72 ∧
      ∀ i c, t.toList[i]? = some c → Hex.IsDigit c ∨ (c = '+' ∧ i % 2 = 0) := by
    rw [parse_accepts_iff, Hex.Paired, String.length_toList]
    refine and_congr_right fun length => and_iff_right ?_
    rw [length]
  refine ⟨accepted, fun r => text_of_parse, parse_refuses, fun t' r r' read read' => ?_,
    fun unsigned => ⟨?_, fun r read => ?_⟩⟩
  · rw [← text_of_parse read, ← text_of_parse read', text_inj]
  · rw [accepted]
    refine and_congr_right fun _ => ⟨fun each c hc => ?_, fun each i c here => ?_⟩
    · obtain ⟨i, here⟩ := List.mem_iff_getElem?.1 hc
      rcases each i c here with digit | ⟨rfl, -⟩
      · exact digit
      · exact absurd hc unsigned
    · exact Or.inl (each c (List.mem_of_getElem? here))
  · have lower : t.toLower = t.map Char.toLower := rfl
    rw [text_of_parse read, lower, ← String.toList_inj, String.toList_map, String.toList_map]
    refine List.map_congr_left fun c hc => if_neg ?_
    rintro rfl
    exact unsigned hc

/-- Mixed case and two plus signs: the text denotes what its plain form denotes. -/
theorem parse_accepts_mixed :
    let t := "+000000000000003000000000000000100000002000000000000000c00000000DeadBe+F"
    ∃ r, parse t = .ok r ∧
      r.text = "0000000000000003000000000000000100000002000000000000000c00000000deadbe0f" ∧
      r = ⟨3, ⟨1, 2⟩, 12, 0xdeadbe0f⟩ := by
  intro t
  obtain ⟨accepted, prints, -, same, -⟩ := parse_accepts t
  have plain : t.map Hex.plain =
      "0000000000000003000000000000000100000002000000000000000c00000000deadbe0f" := by
    decide +kernel
  have paired : Hex.Paired t.toList := (Hex.isSome_readPairs t.toList).1 (by decide +kernel)
  obtain ⟨r, read⟩ := accepted.2 ⟨by decide +kernel, paired.2⟩
  have printed := (prints r read).trans plain
  refine ⟨r, read, printed, text_inj.1 (printed.trans ?_)⟩
  decide +kernel

/-- A text with a plus sign in it is not 72 digits, and yet it denotes a receipt, the one of the
text with a zero in its place. -/
theorem parse_accepts_plus :
    let t := "+000000000000003000000000000000100000002000000000000000c00000000deadbeef"
    let t' := "0000000000000003000000000000000100000002000000000000000c00000000deadbeef"
    (¬ ∀ c ∈ t.toList, Hex.IsDigit c) ∧ t.toLower ≠ t'.toLower ∧
      ∃ r, parse t = .ok r ∧ parse t' = .ok r ∧ r.text ≠ t.toLower := by
  refine ⟨fun each => ?_, by decide +kernel, ⟨3, ⟨1, 2⟩, 12, 0xdeadbeef⟩, ?_, ?_, ?_⟩
  · exact Hex.not_isDigit_plus (each '+' (by decide +kernel))
  · exact parse_of_plain (by decide +kernel) (by decide +kernel) (by decide +kernel)
  · exact parse_of_plain (by decide +kernel) (by decide +kernel) (by decide +kernel)
  · decide +kernel

end QueueLedger.Receipt
