/-
This file names what a document holds where something else was expected. A format
brings its own words for nothing and its own way to write a fraction; the other words
are the same in every format.
-/

import PathQuery.Text.Shown

namespace PathQuery.Document

/-- What stands at a place of a document. -/
inductive Found where
  | nothing
  | boolean (value : Bool)
  | integer (value : Int)
  | wideInteger (value : Int)
  | fraction (value : Float)
  | text (value : String)
  | list
  | map

/-- The words of a format that differ from format to format. -/
structure Wording where
  nothing : String
  fraction : Float → String

/-- A text between the marks that set off a value inside a message. -/
def marked (text : String) : String :=
  "`" ++ text ++ "`"

namespace Found

/-- The name of the type that holds a whole number too large for a machine word. -/
def wideName (value : Int) : String :=
  if value < 0 then "i128" else "u128"

/-- The words for what was found. -/
def describe (wording : Wording) : Found → String
  | nothing => wording.nothing
  | boolean value => "boolean " ++ marked (if value then "true" else "false")
  | integer value => "integer " ++ marked (toString value)
  | wideInteger value => "integer " ++ marked (toString value) ++ " as " ++ wideName value
  | fraction value => "floating point " ++ marked (wording.fraction value)
  | text value => "string " ++ Text.shown value
  | list => "sequence"
  | map => "map"

end Found

/-- A list of names, each set off, the last two joined as alternatives. -/
def alternatives : List String → String
  | [] => ""
  | [name] => marked name
  | [first, second] => marked first ++ " or " ++ marked second
  | names => "one of " ++ ", ".intercalate (names.map marked)

end PathQuery.Document
