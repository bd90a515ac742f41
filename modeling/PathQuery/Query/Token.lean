/-
This file cuts the text of a query into tokens: words, quoted strings and single
marks, with any amount of space, tab, carriage return and line feed between them.
Every token carries the offset, in bytes, at which it starts.
-/

import PathQuery.Text.Letters
import PathQuery.Text.Remaining
import PathQuery.Text.Split

namespace PathQuery.Query

/-- The smallest parts of a query. A stray character is one that no token starts with. -/
inductive Token where
  | word (name : String)
  | quoted (content : String)
  | mark (letter : Char)
  | stray (letter : Char)
  deriving DecidableEq

/-- A token and the offset in bytes of its first character. -/
structure Lexeme where
  token : Token
  offset : Nat
  deriving DecidableEq

/-- Whether a character separates tokens. -/
def isSeparator (letter : Char) : Bool :=
  letter == ' ' || letter == '\t' || letter == '\r' || letter == '\n'

/-- Whether a word may start with a character. -/
def startsWord (letter : Char) : Bool :=
  letter.isAlpha || letter == '_'

/-- Whether a word may go on with a character. -/
def continuesWord (letter : Char) : Bool :=
  letter.isAlphanum || letter == '_'

/-- Whether a character stands on its own as a mark. -/
def isMark (letter : Char) : Bool :=
  ['*', ',', '.', ':', '?', '=', '-'].contains letter

/-- Whether a character opens and closes a quoted string. -/
def isQuote (letter : Char) : Bool :=
  letter == '\'' || letter == '"'

/-- What the text after a first character belongs to: the token that the character starts, and the
characters after that token. A word takes as many characters as it can; a quoted string ends at
the next quote of its own kind. -/
def firstToken (letter : Char) (rest : List Char) :
    Token × Text.Remaining rest :=
  if startsWord letter then
    (.word (String.ofList (letter :: rest.takeWhile continuesWord)),
      .dropWhile continuesWord rest)
  else if isQuote letter then
    match cut : Text.splitFirst letter rest with
    | some (content, after) =>
      (.quoted (String.ofList content), ⟨after, by
        have whole := congrArg List.length (Text.append_of_splitFirst cut)
        simp only [List.length_append, List.length_cons] at whole
        omega⟩)
    | none => (.stray letter, .all rest)
  else if isMark letter then (.mark letter, .all rest)
  else (.stray letter, .all rest)

/-- The tokens of a text whose first character stands at a given offset. -/
def lexemes (offset : Nat) : List Char → List Lexeme
  | [] => []
  | letter :: rest =>
    if isSeparator letter then lexemes (offset + letter.utf8Size) rest
    else
      let ⟨token, ⟨after, _⟩⟩ := firstToken letter rest
      let size := Text.byteSize (letter :: rest) - Text.byteSize after
      ⟨token, offset⟩ :: lexemes (offset + size) after
termination_by letters => letters.length

end PathQuery.Query
