/-
This file says what the pieces of a text are that is cut at a mark. The text is cut at each of its
marks, so its pieces have none, and put together again with marks between them they are the text.
-/

import Mathlib.Data.List.Basic
import PathQuery.Text.Split

namespace PathQuery.Text

variable {mark : Char}

theorem pieces_cons_mark (rest : List Char) :
    pieces mark (mark :: rest) = [] :: pieces mark rest := by
  rw [pieces, if_pos rfl]

theorem exists_pieces (mark : Char) (text : List Char) :
    ∃ first others, pieces mark text = first :: others := by
  induction text with
  | nil => exact ⟨[], [], rfl⟩
  | cons letter rest inductionHypothesis =>
    obtain ⟨first, others, cut⟩ := inductionHypothesis
    rw [pieces, cut]
    split
    · exact ⟨_, _, rfl⟩
    · exact ⟨_, _, rfl⟩

theorem pieces_cons {letter : Char} {rest first : List Char} {others : List (List Char)}
    (differs : letter ≠ mark) (cut : pieces mark rest = first :: others) :
    pieces mark (letter :: rest) = (letter :: first) :: others := by
  rw [pieces, if_neg differs, cut]

/-- What stands before a text without a mark belongs to its first piece. -/
theorem pieces_append {before after first : List Char} {others : List (List Char)}
    (free : mark ∉ before) (cut : pieces mark after = first :: others) :
    pieces mark (before ++ after) = (before ++ first) :: others := by
  induction before with
  | nil => exact cut
  | cons letter before inductionHypothesis =>
    rw [List.mem_cons, not_or] at free
    exact pieces_cons (Ne.symm free.1) (inductionHypothesis free.2)

/-- A text is cut at each of its marks. -/
theorem pieces_append_mark (before after : List Char) :
    pieces mark (before ++ mark :: after) = pieces mark before ++ pieces mark after := by
  induction before with
  | nil => exact pieces_cons_mark after
  | cons letter before inductionHypothesis =>
    rw [List.cons_append, pieces, pieces, inductionHypothesis]
    obtain ⟨first, others, cut⟩ := exists_pieces mark before
    split
    · rfl
    · rw [cut]
      rfl

/-- A text ends after its first piece, or it goes on with a mark and the other pieces. -/
theorem of_pieces {text first : List Char} {others : List (List Char)}
    (cut : pieces mark text = first :: others) : mark ∉ first ∧
      (text = first ∧ others = [] ∨ ∃ rest, text = first ++ mark :: rest ∧
        pieces mark rest = others) := by
  induction text generalizing first with
  | nil =>
    cases cut
    exact ⟨List.not_mem_nil, .inl ⟨rfl, rfl⟩⟩
  | cons letter rest inductionHypothesis =>
    rw [pieces] at cut
    split at cut
    · next same =>
      cases cut
      exact ⟨List.not_mem_nil, .inr ⟨rest, by rw [same]; rfl, rfl⟩⟩
    · next differs =>
      obtain ⟨next, further, cutRest⟩ := exists_pieces mark rest
      rw [cutRest] at cut
      cases cut
      obtain ⟨free, whole⟩ := inductionHypothesis cutRest
      refine ⟨List.not_mem_cons_of_ne_of_not_mem (Ne.symm differs) free, ?_⟩
      rcases whole with ⟨rfl, alone⟩ | ⟨later, rfl, cutLater⟩
      · exact .inl ⟨rfl, alone⟩
      · exact .inr ⟨later, rfl, cutLater⟩

/-- A text starts with the letter with which its first piece starts. -/
theorem head?_of_pieces {text first : List Char} {others : List (List Char)} {letter : Char}
    (cut : pieces mark text = first :: others) (starts : first.head? = some letter) :
    text.head? = some letter := by
  rcases (of_pieces cut).2 with ⟨rfl, -⟩ | ⟨rest, rfl, -⟩
  · exact starts
  · rw [List.head?_append, starts]
    rfl

/-- A letter at the start of a text that goes on with a mark stands before that mark, unless it is
one. -/
theorem head?_of_append {before after : List Char} {letter : Char} (differs : letter ≠ mark)
    (starts : (before ++ mark :: after).head? = some letter) : before.head? = some letter := by
  cases before with
  | nil => exact absurd (Option.some.inj starts).symm differs
  | cons first rest => exact starts

/-! ### Cutting without loss -/

/-- A text without a mark is its only piece. -/
theorem pieces_of_free {text : List Char} (free : mark ∉ text) : pieces mark text = [text] := by
  have whole : pieces mark (text ++ []) = [text ++ []] := pieces_append free rfl
  rwa [List.append_nil] at whole

/-- The pieces with a mark between any two of them are the text again. -/
theorem intercalate_pieces (mark : Char) (text : List Char) :
    [mark].intercalate (pieces mark text) = text := by
  induction text with
  | nil => rfl
  | cons letter rest inductionHypothesis =>
    obtain ⟨first, others, cut⟩ := exists_pieces mark rest
    rw [cut] at inductionHypothesis
    by_cases same : letter = mark
    · rw [same, pieces_cons_mark, cut, List.intercalate_cons_cons, inductionHypothesis]
      rfl
    · rw [pieces_cons same cut, ← inductionHypothesis]
      cases others with
      | nil => rfl
      | cons second others => rw [List.intercalate_cons_cons, List.intercalate_cons_cons]; rfl

theorem split_of_free {text : String} (free : mark ∉ text.toList) : split mark text = [text] := by
  rw [split, pieces_of_free free, List.map_singleton, String.ofList_toList]

/-- Texts of the same pieces are the same. -/
theorem split_injective : Function.Injective (split mark) := by
  intro first second same
  have pieces := List.map_injective_iff.mpr (fun _ _ => String.ofList_injective) same
  rw [← String.toList_inj, ← intercalate_pieces mark first.toList, pieces,
    intercalate_pieces]

end PathQuery.Text
