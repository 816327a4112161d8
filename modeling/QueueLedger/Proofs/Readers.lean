import QueueLedger.Bytes.LittleEndian
/-!
# Readers of what was written

A format reads back if its reader takes the bytes of a value for that value, whatever follows
them (`Reader.Takes`). Formats are built field by field, and so are these facts: there is one rule
for each way of building readers.

A reader that knows by itself where to stop is `Steady`: what it takes does not change when the
input goes on. This says nothing of what was written, so it is a fact about the reader alone, with
one rule for each way of building readers again. It settles what happens to input that was cut
off: were a front part accepted, it would be accepted with the cut-off bytes left over
(`Steady.eq_none`).
-/

namespace QueueLedger.Reader

variable {α β : Type} {x : Reader α} {f : α → Reader β} {a : α} {b : β} {w w' : Bytes}

/-- The reader takes the bytes `w` for the value `a`, whatever follows them. -/
def Takes (x : Reader α) (w : Bytes) (a : α) : Prop := ∀ rest, x (w ++ rest) = some (a, rest)

theorem takes_pure (a : α) : Takes (pure a) [] a := fun _ => rfl

/-- One field, and then the others. -/
theorem Takes.bind (hx : Takes x w a) (hf : Takes (f a) w' b) : Takes (x >>= f) (w ++ w') b := by
  intro rest
  have run (bytes : Bytes) : (x >>= f) bytes = (x bytes).bind fun (a, rest) => f a rest := rfl
  rw [run, List.append_assoc, hx, Option.bind_some]
  exact hf rest

/-- The last field. -/
theorem Takes.last (hx : Takes x w a) (g : α → β) : Takes (x >>= fun a => pure (g a)) w (g a) := by
  have field := hx.bind (f := fun a => pure (g a)) (takes_pure (g a))
  rwa [List.append_nil] at field

theorem Takes.map (hx : Takes x w a) (g : α → β) : Takes (g <$> x) w (g a) := by
  intro rest
  have run (bytes : Bytes) : (g <$> x) bytes = (x bytes).map fun (a, rest) => (g a, rest) := by
    show StateT.map g x bytes = _
    unfold StateT.map
    cases x bytes <;> rfl
  rw [run, hx]
  rfl

/-- A value that passes a check. -/
theorem Takes.accept (hx : Takes x w a) {check : α → Option β} (ok : check a = some b) :
    Takes (accept check x) w b := by
  intro rest
  unfold Reader.accept
  rw [hx]
  dsimp only
  rw [ok]
  rfl

theorem takes_take {n : Nat} (h : w.length = n) : Takes (take n) w w := fun rest =>
  take_of_length h rest

/-- Several values in a row, which were written from something else. -/
theorem takes_times_map {γ : Type} {put : γ → Bytes} {value : γ → α} (cs : List γ)
    (h : ∀ c ∈ cs, Takes x (put c) (value c)) :
    Takes (times x cs.length) (cs.flatMap put) (cs.map value) := by
  induction cs with
  | nil => exact fun _ => rfl
  | cons c cs ih =>
    intro rest
    have first := h c List.mem_cons_self (cs.flatMap put ++ rest)
    have others := ih (fun c' hc' => h c' (List.mem_cons_of_mem c hc')) rest
    rw [List.flatMap_cons, List.append_assoc, List.length_cons, times, first]
    dsimp only
    rw [others]
    rfl

/-- Several values in a row. -/
theorem takes_times {put : α → Bytes} (as : List α) (h : ∀ a ∈ as, Takes x (put a) a) :
    Takes (times x as.length) (as.flatMap put) as := by
  have values : Takes (times x as.length) (as.flatMap put) (as.map id) := takes_times_map as h
  rwa [List.map_id] at values

theorem takes_littleEndian {width n : Nat} (h : n < Bytes.capacity width) :
    Takes (LittleEndian.read width) (LittleEndian.encode width n) n :=
  LittleEndian.read_encode h

/-! ### Readers that know where to stop -/

/-- More input behind changes nothing: the reader takes the same value, and hands on what came
on top. -/
def Steady (x : Reader α) : Prop :=
  ∀ b a rest, x b = some (a, rest) → ∀ more, x (b ++ more) = some (a, rest ++ more)

/-- A reader that takes one field and then, depending on it, the others. -/
theorem Steady.followed {y : Reader β} (hx : Steady x) (hf : ∀ a, Steady (f a))
    (run : ∀ b, y b = match x b with
      | none => none
      | some (a, rest) => f a rest) : Steady y := by
  intro b c rest' h more
  rw [run] at h ⊢
  cases field : x b with
  | none =>
    rw [field] at h
    cases h
  | some first =>
    obtain ⟨a, rest⟩ := first
    rw [field] at h
    rw [hx b a rest field more]
    exact hf a rest c rest' h more

theorem steady_pure (a : α) : Steady (pure a) := by
  intro b c rest h more
  cases h
  rfl

theorem Steady.bind (hx : Steady x) (hf : ∀ a, Steady (f a)) : Steady (x >>= f) :=
  hx.followed hf fun b => by
    show (x b).bind (fun (a, rest) => f a rest) = _
    cases x b <;> rfl

theorem Steady.accept (hx : Steady x) (check : α → Option β) : Steady (accept check x) := by
  refine hx.followed (f := fun a rest => (check a).map (·, rest)) ?_ fun b => ?_
  · intro a b c rest h more
    obtain ⟨d, ok, eq⟩ := Option.map_eq_some_iff.1 h
    cases eq
    simp only [ok, Option.map_some]
  · unfold Reader.accept
    cases x b <;> rfl

theorem steady_take (n : Nat) : Steady (take n) := by
  intro b a rest h more
  unfold take at h ⊢
  split at h
  · cases h
  next enough =>
    cases h
    have room : n ≤ b.length := Nat.not_lt.1 enough
    have still : ¬ (b ++ more).length < n := by
      rw [List.length_append]
      omega
    rw [if_neg still, List.take_append_of_le_length room, List.drop_append_of_le_length room]

/-- Several values in a row, as many as were announced. -/
theorem Steady.times (hx : Steady x) (n : Nat) : Steady (times x n) := by
  induction n with
  | zero =>
    intro b as rest h more
    cases h
    rfl
  | succ n ih =>
    refine hx.followed (fun a => ih.bind fun as => steady_pure (a :: as)) fun b => ?_
    rw [Reader.times]
    cases x b with
    | none => rfl
    | some first =>
      obtain ⟨a, rest⟩ := first
      show _ = (Reader.times x n rest).bind fun (as, rest') => some (a :: as, rest')
      cases others : Reader.times x n rest with
      | none => simp only [others, Option.bind_none]
      | some others => simp only [others, Option.bind_some]

theorem steady_littleEndian (width : Nat) : Steady (LittleEndian.read width) :=
  (steady_take width).followed (fun digits => steady_pure (LittleEndian.decode digits)) fun b => by
    unfold LittleEndian.read
    cases take width b <;> rfl

/-- What is taken to the end is refused when it has been cut off. -/
theorem Steady.eq_none (hx : Steady x) {whole front : Bytes} (taken : x whole = some (a, []))
    (part : front <+: whole) (proper : front ≠ whole) : x front = none := by
  cases cut : x front with
  | none => rfl
  | some first =>
    obtain ⟨c, rest⟩ := first
    obtain ⟨more, rfl⟩ := part
    -- The front part would be taken with all of `more` left over, and nothing is.
    have left := hx front c rest cut more
    rw [taken] at left
    have none_left : rest ++ more = [] := by
      injection left with pair
      exact (congrArg Prod.snd pair).symm
    refine absurd ?_ proper
    rw [(List.append_eq_nil_iff.1 none_left).2, List.append_nil]

end QueueLedger.Reader
