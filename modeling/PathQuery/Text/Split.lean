/-
This file splits and joins text. A text is cut at the first occurrence of a mark,
or at every occurrence of it, and pieces are put together again with a mark
between them; cutting and joining undo each other.
-/

namespace PathQuery.Text

/-- Cuts a text in two at the first occurrence of a mark, which belongs to neither half. -/
def splitFirst (mark : Char) : List Char → Option (List Char × List Char)
  | [] => none
  | letter :: rest =>
    if letter = mark then some ([], rest)
    else (splitFirst mark rest).map fun halves => (letter :: halves.1, halves.2)

/-- Cuts a text at every occurrence of a mark; there is one piece more than there are marks. -/
def pieces (mark : Char) : List Char → List (List Char)
  | [] => [[]]
  | letter :: rest =>
    if letter = mark then [] :: pieces mark rest
    else
      match pieces mark rest with
      | [] => [[letter]]
      | first :: others => (letter :: first) :: others

/-- The pieces of a text between the occurrences of a mark. -/
def split (mark : Char) (text : String) : List String :=
  (pieces mark text.toList).map String.ofList

/-- A text of whole lines. -/
def ofLines (lines : List String) : String :=
  String.join (lines.map (· ++ "\n"))

/-- The halves before and after the first mark are joined by it to the text that was cut. -/
theorem append_of_splitFirst {mark : Char} {text before after : List Char}
    (cut : splitFirst mark text = some (before, after)) : before ++ mark :: after = text := by
  induction text generalizing before with
  | nil => simp [splitFirst] at cut
  | cons letter rest inductionHypothesis =>
    by_cases same : letter = mark
    · simp only [splitFirst, if_pos same, Option.some.injEq, Prod.mk.injEq] at cut
      rw [← cut.1, ← cut.2, same]
      rfl
    · simp only [splitFirst, if_neg same, Option.map_eq_some_iff, Prod.mk.injEq] at cut
      obtain ⟨halves, found, rfl, rfl⟩ := cut
      rw [List.cons_append, inductionHypothesis found]

/-- A text is cut at a mark before which none stands. -/
theorem splitFirst_append {mark : Char} {before : List Char} (after : List Char)
    (free : mark ∉ before) : splitFirst mark (before ++ mark :: after) = some (before, after) := by
  induction before with
  | nil => rw [List.nil_append, splitFirst, if_pos rfl]
  | cons letter before inductionHypothesis =>
    rw [List.mem_cons, not_or] at free
    rw [List.cons_append, splitFirst, if_neg (Ne.symm free.1), inductionHypothesis free.2,
      Option.map_some]

/-- No mark stands before the one that a text is cut at. -/
theorem not_mem_of_splitFirst {mark : Char} {text before after : List Char}
    (cut : splitFirst mark text = some (before, after)) : mark ∉ before := by
  induction text generalizing before with
  | nil => cases cut
  | cons letter rest inductionHypothesis =>
    by_cases same : letter = mark
    · simp only [splitFirst, if_pos same, Option.some.injEq, Prod.mk.injEq] at cut
      rw [← cut.1]
      exact List.not_mem_nil
    · simp only [splitFirst, if_neg same, Option.map_eq_some_iff, Prod.mk.injEq] at cut
      obtain ⟨halves, found, rfl, rfl⟩ := cut
      rw [List.mem_cons, not_or]
      exact ⟨Ne.symm same, inductionHypothesis found⟩

end PathQuery.Text
