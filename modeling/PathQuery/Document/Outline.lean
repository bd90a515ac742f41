/-
This file defines outlines: texts, lists and named fields, nested in one another. What
is shown to a user is laid out as an outline first and then written in a format.
-/

import PathQuery.Json.Value

namespace PathQuery

/-- A text, a list, or fields in order. -/
inductive Outline where
  | text (content : String)
  | list (items : List Outline)
  | fields (members : List (String × Outline))

namespace Outline

mutual

/-- An outline as a value of a JSON document. -/
def json : Outline → Json.Value
  | .text content => .text content
  | .list items => .array (jsonItems items)
  | .fields members => .object (jsonMembers members)

/-- The items of a list as values. -/
def jsonItems : List Outline → List Json.Value
  | [] => []
  | item :: rest => item.json :: jsonItems rest

/-- The fields of an outline as members. -/
def jsonMembers : List (String × Outline) → List (String × Json.Value)
  | [] => []
  | (name, value) :: rest => (name, value.json) :: jsonMembers rest

end

/-- A list of texts. -/
def texts (contents : List String) : Outline := list (contents.map text)

/-- A field for a text that may be missing. -/
def optional (name : String) (content : Option String) : List (String × Outline) :=
  (content.map fun content => (name, text content)).toList

end Outline

end PathQuery
