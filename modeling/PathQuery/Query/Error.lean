/-
This file defines what can be wrong with the text of a query, and how that is
told. A complaint names the offset in bytes at which the text stops making sense.
-/

import PathQuery.Query.Token
import PathQuery.Text.Letters

namespace PathQuery.Query

/-- What the text should have gone on with. -/
inductive Expectation where
  | typeName
  | typeNameAfterDot
  | attrOrStar
  | attrName
  | operator
  | quotedValue
  | linkOrEnd
  deriving DecidableEq

namespace Expectation

/-- The words for an expectation. -/
def text : Expectation → String
  | typeName => "type name"
  | typeNameAfterDot => "type name after '.'"
  | attrOrStar => "attribute name or '*'"
  | attrName => "attribute name"
  | operator => "operator (eq or ne)"
  | quotedValue => "quoted value"
  | linkOrEnd => "link ('-' or '=') or end of query"

end Expectation

/-- The reasons for refusing the text of a query. -/
inductive Error where
  | empty
  | unexpectedLetter (letter : Char) (offset : Nat)
  | unexpected (expected : Expectation) (found : Option Token) (offset : Nat)
  | unknownOperator (word : String) (offset : Nat)
  deriving DecidableEq

namespace Token

/-- How a token is named in a complaint. -/
def describe : Token → String
  | word name => "identifier \"" ++ name ++ "\""
  | quoted content => "string '" ++ content ++ "'"
  | mark letter => "'" ++ letter.toString ++ "'"
  | stray letter => "'" ++ letter.toString ++ "'"

/-- Whether a stray character is one that could have been part of a query: a blank character, or a
quote that is never closed. -/
def isPlausible (letter : Char) : Bool :=
  Text.isBlank letter || isQuote letter

end Token

namespace Error

/-- The offset in bytes that an error points at. -/
def offset? : Error → Option Nat
  | empty => none
  | unexpectedLetter _ offset => some offset
  | unexpected _ _ offset => some offset
  | unknownOperator _ offset => some offset

/-- The complaint about a text that does not go on as expected. The rest of the text is given by
its tokens and the offset at which the whole text ends. -/
def atRest (expected : Expectation) (rest : List Lexeme) (ending : Nat) : Error :=
  match rest with
  | [] => unexpected expected none ending
  | ⟨.stray letter, offset⟩ :: _ =>
    if Token.isPlausible letter then unexpected expected (some (.stray letter)) offset
    else unexpectedLetter letter offset
  | ⟨token, offset⟩ :: _ => unexpected expected (some token) offset

/-- The message for an error. -/
def message : Error → String
  | empty => "empty query"
  | unexpectedLetter letter offset =>
    "unexpected character '" ++ letter.toString ++ "' at position " ++ toString offset
  | unexpected expected found offset =>
    "expected " ++ expected.text ++ " at position " ++ toString offset ++ ", found " ++
      (found.map Token.describe).getD "end of query"
  | unknownOperator word offset =>
    "unknown operator \"" ++ word ++ "\" at position " ++ toString offset ++
      " (expected eq or ne)"

end Error

end PathQuery.Query
