/-
This file defines what remains of a text when something has been read from its front:
another text, and no longer than the whole.
-/

namespace PathQuery.Text

/-- Text that remains, no more than there was. -/
abbrev Remaining (input : List Char) := { rest : List Char // rest.length ≤ input.length }

/-- A text is no longer than itself. -/
theorem length_le_self (input : List Char) : input.length ≤ input.length := Nat.le_refl _

/-- A text is no longer than with a character in front of it. -/
theorem length_le_cons (letter : Char) (input : List Char) :
    input.length ≤ (letter :: input).length := Nat.le_succ _

/-- A text is shorter than with a character in front of it. -/
theorem length_lt_cons (letter : Char) (input : List Char) :
    input.length < (letter :: input).length := Nat.lt_succ_self _

namespace Remaining

variable {input : List Char}

/-- All of a text remains. -/
def all (input : List Char) : Remaining input := ⟨input, length_le_self input⟩

/-- All but the first character remains. -/
def tail (letter : Char) (input : List Char) : Remaining (letter :: input) :=
  ⟨input, length_le_cons letter input⟩

/-- A shorter text remains. -/
def ofShorter (rest : List Char) (shorter : rest.length < input.length) : Remaining input :=
  ⟨rest, Nat.le_of_lt shorter⟩

/-- What remains of what remains of a text. -/
def within (further : Remaining input) (rest : Remaining further.val) : Remaining input :=
  ⟨rest.val, Nat.le_trans rest.property further.property⟩

/-- What remains of a text remains of it with a character in front. -/
def cons (letter : Char) (rest : Remaining input) : Remaining (letter :: input) :=
  (tail letter input).within rest

/-- What remains of a text when characters of a class are taken from its front. -/
def dropWhile (isTaken : Char → Bool) (input : List Char) : Remaining input :=
  ⟨input.dropWhile isTaken, (List.dropWhile_sublist isTaken).length_le⟩

end Remaining

end PathQuery.Text
