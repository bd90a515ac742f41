/-
This file writes outlines as YAML documents. Fields and items stand on lines of their
own; the items of a list under a name are not indented, all else is by two spaces. A
name that is too long or has several lines is set off by a question mark.
-/

import PathQuery.Document.Outline
import PathQuery.Text.Letters
import PathQuery.Yaml.Scalar

namespace PathQuery.Yaml

/-- The greatest size in bytes of a name that stands before its colon. -/
def nameLimit : Nat := 128

/-- Whether a name stands before its colon. -/
def isSimpleName (name : String) : Bool :=
  Text.byteSize name.toList ≤ nameLimit && !hasBreak name.toList

/-- A new line, unless the text before it has ended one. -/
def endLine (letters : List Char) : List Char :=
  if letters.getLast?.any isBreak then letters else letters ++ ['\n']

/-- A name with the mark that its value follows, under a given indentation. -/
def nameWithMark (width : Nat) (name : String) : List Char :=
  if isSimpleName name then scalar (width + step) name ++ [':']
  else endLine ('?' :: ' ' :: scalar (width + step) name) ++ indent width ++ [':']

/-- Lines of which all but the first are indented. -/
def joinLines (width : Nat) : List (List Char) → List Char
  | [] => []
  | [line] => line
  | line :: rest => line ++ indent width ++ joinLines width rest

mutual

/-- The value of a field, after the colon. The indentation is that of the field. -/
def fieldValue (width : Nat) : Outline → List Char
  | .text content => endLine (' ' :: scalar (width + step) content)
  | .list [] => " []\n".toList
  | .fields [] => " \x7b\x7d\n".toList
  | .list items => '\n' :: indent width ++ joinLines width (itemLines width items)
  | .fields members =>
    '\n' :: indent (width + step) ++ joinLines (width + step) (memberLines (width + step) members)

/-- An item of a list, after the dash. The indentation is that of the dash. -/
def itemValue (width : Nat) : Outline → List Char
  | .text content => endLine (' ' :: scalar (width + step) content)
  | .list [] => " []\n".toList
  | .fields [] => " \x7b\x7d\n".toList
  | .list items => ' ' :: joinLines (width + step) (itemLines (width + step) items)
  | .fields members => ' ' :: joinLines (width + step) (memberLines (width + step) members)

/-- The items of a list, each with its dash. -/
def itemLines (width : Nat) : List Outline → List (List Char)
  | [] => []
  | item :: rest => ('-' :: itemValue width item) :: itemLines width rest

/-- The fields of an outline, each with its name. -/
def memberLines (width : Nat) : List (String × Outline) → List (List Char)
  | [] => []
  | (name, value) :: rest =>
    (nameWithMark width name ++ fieldValue width value) :: memberLines width rest

end

/-- An outline as a document. -/
def document : Outline → String
  | .text content => String.ofList (endLine (scalar step content))
  | .list [] => "[]\n"
  | .fields [] => "\x7b\x7d\n"
  | .list items => String.ofList (joinLines 0 (itemLines 0 items))
  | .fields members => String.ofList (joinLines 0 (memberLines 0 members))

end PathQuery.Yaml
