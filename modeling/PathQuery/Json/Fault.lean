/-
This file defines what can be wrong with a JSON document, and how that is told: a fault
of its form, or a value that is not what its place asks for. A fault is told with its place,
which is a line and the number of bytes before the place on that line. While a document is
read its places are known by the bytes that follow them.
-/

import PathQuery.Document.Mismatch
import PathQuery.Json.Value
import PathQuery.Text.Letters

namespace PathQuery.Json

/-- The parts of a document that can be left open at its end. -/
inductive Part where
  | value
  | array
  | object
  | text
  deriving DecidableEq

/-- How a part is named in a message. -/
def Part.name : Part → String
  | value => "a value"
  | array => "a list"
  | object => "an object"
  | text => "a string"

/-- The reasons for refusing a document. -/
inductive Fault where
  | ends (within : Part)
  | noColon
  | noCommaOrBracket
  | noCommaOrBrace
  | noWord
  | noValue
  | badEscape
  | badNumber
  | hugeNumber
  | controlCharacter
  | keyNotText
  | halfPair
  | brokenPair
  | trailingComma
  | trailingText
  | tooDeep
  | wrongType (found : Document.Found) (expected : String)
  | wrongLength (found : Nat) (expected : String)
  | missingField (name : String)
  | duplicateField (name : String)

namespace Fault

/-- The words of JSON for nothing and for a fraction. -/
def wording : Document.Wording := ⟨"null", doubleText⟩

/-- The words for a fault. -/
def words : Fault → String
  | ends part => "EOF while parsing " ++ part.name
  | noColon => "expected " ++ Document.marked ":"
  | noCommaOrBracket => "expected " ++ Document.marked "," ++ " or " ++ Document.marked "]"
  | noCommaOrBrace => "expected " ++ Document.marked "," ++ " or " ++ Document.marked "\x7d"
  | noWord => "expected ident"
  | noValue => "expected value"
  | badEscape => "invalid escape"
  | badNumber => "invalid number"
  | hugeNumber => "number out of range"
  | controlCharacter => "control character (\\u0000-\\u001F) found while parsing a string"
  | keyNotText => "key must be a string"
  | halfPair => "lone leading surrogate in hex escape"
  | brokenPair => "unexpected end of hex escape"
  | trailingComma => "trailing comma"
  | trailingText => "trailing characters"
  | tooDeep => "recursion limit exceeded"
  | wrongType found expected =>
    "invalid type: " ++ found.describe wording ++ ", expected " ++ expected
  | wrongLength found expected =>
    "invalid length " ++ toString found ++ ", expected " ++ expected
  | missingField name => "missing field " ++ Document.marked name
  | duplicateField name => "duplicate field " ++ Document.marked name

/-- Whether the document ended too early. -/
def isEnding : Fault → Bool
  | ends _ => true
  | _ => false

end Fault

/-! ### Places -/

/-- Why reading stops, and the number of bytes that follow the place where that is told. -/
structure Stop where
  fault : Fault
  left : Nat

namespace Fault

/-- A fault that is told where a text starts. -/
def before (fault : Fault) (input : List Char) : Stop := ⟨fault, Text.byteSize input⟩

/-- A fault that is told a number of bytes further on in a text, or at its end. -/
def after (fault : Fault) (bytes : Nat) (input : List Char) : Stop :=
  ⟨fault, Text.byteSize input - bytes⟩

/-- A fault that is told after the first byte of a text. -/
def past (fault : Fault) (input : List Char) : Stop := fault.after 1 input

/-- A fault that is told at the end of the document. -/
def atEnd (fault : Fault) : Stop := ⟨fault, 0⟩

end Fault

/-- Why a text is refused as a document, and where. -/
structure Error where
  fault : Fault
  line : Nat
  column : Nat

namespace Error

/-- The byte that ends a line. -/
def lineBreak : UInt8 := '\n'.toUInt8

/-- The error for a text where reading it stops. -/
def ofStop (content : String) (stop : Stop) : Error :=
  let bytes := content.toUTF8.toList
  let read := bytes.take (bytes.length - stop.left)
  ⟨stop.fault, 1 + read.count lineBreak, (read.reverse.takeWhile (· != lineBreak)).length⟩

/-- The message for an error. -/
def message (error : Error) : String :=
  error.fault.words ++ " at line " ++ toString error.line ++ " column " ++ toString error.column

end Error

end PathQuery.Json
