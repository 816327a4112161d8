/-!
# Cutting texts

Cutting a text at every occurrence of a character.
-/

namespace QueueLedger.Text

/-- The pieces of a text between the occurrences of a character, of which there is always one
more. -/
def pieces (c : Char) (s : String) : List String := (s.toList.splitOn c).map String.ofList

/-- A text without the character is its only piece. -/
theorem pieces_of_notMem {c : Char} {s : String} (h : c ∉ s.toList) : pieces c s = [s] := by
  rw [pieces, List.splitOn_eq_singleton h, List.map_singleton, String.ofList_toList]

/-- What comes before an occurrence of the character is cut apart from what comes after it. -/
theorem pieces_append (c : Char) (s t : String) :
    pieces c (s ++ String.singleton c ++ t) = pieces c s ++ pieces c t := by
  have chars : (s ++ String.singleton c ++ t).toList = s.toList ++ c :: t.toList := by simp
  rw [pieces, chars, List.splitOn_append_cons_self, List.map_append]
  rfl

/-- The characters of a text are those of its pieces with the character in between. -/
theorem toList_eq_intercalate (c : Char) (s : String) :
    s.toList = [c].intercalate ((pieces c s).map String.toList) := by
  have chars : (pieces c s).map String.toList = s.toList.splitOn c := by
    simp [pieces, Function.comp_def]
  rw [chars, List.intercalate_splitOn]

end QueueLedger.Text
