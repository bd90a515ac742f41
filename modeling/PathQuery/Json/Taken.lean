/-
This file defines what it is to read something from the front of a text: a value and the
rest of the text, which is shorter than the whole. Repeated reading ends because of that.
-/

import PathQuery.Json.Fault
import PathQuery.Text.Remaining

namespace PathQuery.Json

open Text (Remaining)

/-- A value read from the front of a text, and what is left of the text. -/
structure Taken (α : Type) (input : List Char) where
  value : α
  rest : List Char
  shorter : rest.length < input.length

/-- A way to read something from the front of a text. -/
abbrev Reading (α : Type) := (input : List Char) → Except Stop (Taken α input)

namespace Taken

variable {α β : Type} {input further : List Char}

/-- What was read from a later part of a text was read from the text. -/
def within (taken : Taken α further) (shorter : further.length ≤ input.length) :
    Taken α input :=
  ⟨taken.value, taken.rest, Nat.lt_of_lt_of_le taken.shorter shorter⟩

/-- Changes the value that was read. -/
def map (change : α → β) (taken : Taken α input) : Taken β input :=
  ⟨change taken.value, taken.rest, taken.shorter⟩

/-- What remains of the text. -/
def remaining (taken : Taken α input) : Remaining input :=
  .ofShorter taken.rest taken.shorter

/-- A value read from the first character alone. -/
def ofLetter (value : α) (letter : Char) (input : List Char) : Taken α (letter :: input) :=
  ⟨value, input, Text.length_lt_cons letter input⟩

/-- A value read from the first character and some of what follows it. -/
def ofRemaining (value : α) (letter : Char) (rest : Remaining input) :
    Taken α (letter :: input) :=
  ⟨value, rest.val, Nat.lt_succ_of_le rest.property⟩

/-- What was read after a character was read from the text that starts with it. -/
def afterLetter (letter : Char) (taken : Taken α input) : Taken α (letter :: input) :=
  taken.within (Text.length_le_cons letter input)

end Taken

/-! ### Space and words -/

/-- Whether a character may stand between the parts of a document. -/
def isSpace (letter : Char) : Bool :=
  letter == ' ' || letter == '\n' || letter == '\t' || letter == '\r'

/-- A text without the space at its front. -/
def afterSpace (input : List Char) : List Char := input.dropWhile isSpace

/-- Leaving out space makes a text no longer. -/
theorem length_afterSpace_le (input : List Char) : (afterSpace input).length ≤ input.length :=
  (List.dropWhile_sublist _).length_le

/-- What follows the first character after space is shorter than the whole. -/
theorem length_lt_of_afterSpace {input rest : List Char} {letter : Char}
    (spaced : afterSpace input = letter :: rest) : rest.length < input.length := by
  have bound := length_afterSpace_le input
  rw [spaced] at bound
  exact bound

/-- What remains after the first character after space. -/
def afterSpaced {input : List Char} (letter : Char) (rest : List Char)
    (spaced : afterSpace input = letter :: rest) : Remaining input :=
  .ofShorter rest (length_lt_of_afterSpace spaced)

/-- The rest of a word that stands for a value, known by its first letter, and the value. -/
def wordOf? (letter : Char) : Option (String × Value) :=
  if letter = 'n' then some ("ull", .null)
  else if letter = 't' then some ("rue", .boolean true)
  else if letter = 'f' then some ("alse", .boolean false)
  else none

/-- Reads the letters of a word. -/
def afterWord (word : List Char) (input : List Char) : Except Stop (Remaining input) :=
  match word, input with
  | [], input => .ok (.all input)
  | _ :: _, [] => .error (Fault.ends .value).atEnd
  | wanted :: more, letter :: input =>
    if letter = wanted then (afterWord more input).map (.cons letter)
    else .error (Fault.noWord.past (letter :: input))

end PathQuery.Json
