import ScriptModules.Text.Blank

/-!
# Taking texts apart

The pieces of a text between separators, its lines, and its two parts around a
mark.
-/

namespace ScriptModules.Text

/-- The pieces of a text between separators. -/
def piecesAt (separator : Char) : List Char → List (List Char)
  | [] => [[]]
  | c :: cs =>
    match piecesAt separator cs with
    | [] => [[c]]
    | piece :: more =>
      if c = separator then [] :: piece :: more else (c :: piece) :: more

/-- The lines of a text, without blanks around them. -/
def lines (text : String) : List (List Char) :=
  (piecesAt '\n' text.toList).map trim

/-- The parts of a text around the first occurrence of a mark. -/
def around? (mark : List Char) : List Char → Option (List Char × List Char)
  | [] => none
  | c :: cs =>
    if mark.isPrefixOf (c :: cs) then some ([], (c :: cs).drop mark.length)
    else (around? mark cs).map fun (front, back) => (c :: front, back)

theorem piecesAt_ne_nil (separator : Char) (text : List Char) : piecesAt separator text ≠ [] := by
  cases text with
  | nil => simp [piecesAt]
  | cons c cs =>
    rw [piecesAt]
    split
    · simp
    · split <;> simp

/-- The parts with the mark between them are the text. -/
theorem eq_of_around? {mark text front back : List Char}
    (h : around? mark text = some (front, back)) : text = front ++ mark ++ back := by
  induction text generalizing front back with
  | nil => simp [around?] at h
  | cons c cs ih =>
    rw [around?] at h
    split at h
    · rename_i found
      obtain ⟨rest, hr⟩ := List.isPrefixOf_iff_prefix.mp found
      simp only [Option.some.injEq, Prod.mk.injEq] at h
      rw [← h.1, ← h.2, ← hr]
      simp
    · obtain ⟨⟨f, b⟩, hf, he⟩ := Option.map_eq_some_iff.mp h
      simp only [Prod.mk.injEq] at he
      rw [ih hf, ← he.1, ← he.2]
      simp

example : around? " from ".toList "a from b from c".toList = some (['a'], "b from c".toList) := by
  decide

end ScriptModules.Text
