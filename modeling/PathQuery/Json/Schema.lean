/-
This file defines descriptions of JSON documents, and how a description is written as a
document itself, after draft 7 of JSON Schema. Records and choices have names; a
document brings the definitions of all those that it refers to.
-/

import PathQuery.Dict
import PathQuery.Json.Value

namespace PathQuery.Json.Schema

/-- The shapes of values. -/
inductive Shape where
  | text
  | boolean
  | count
  | list (items : Shape)
  | named (name : String)

/-- A field of a record, with the value that it has where it is left out. -/
structure Property where
  name : String
  description : Option String
  usual : Option Value
  shape : Shape

/-- A name that may be chosen. -/
structure Choice where
  name : String
  description : Option String

/-- What a definition defines: a record, which may allow further fields, or a choice. -/
inductive Body where
  | record (isOpen : Bool) (properties : List Property)
  | choice (names : List Choice)

/-- A record or a choice with its name. -/
structure Definition where
  name : String
  description : Option String
  body : Body

/-- A description: the definition of the whole document and those that it refers to. -/
structure Document where
  whole : Definition
  parts : List Definition

/-! ### Writing -/

/-- An object whose members are in the order of their names. -/
def ordered (members : List (String × Value)) : Value :=
  .object (Dict.ofPairs members).entries

/-- A member for a description that may be missing. -/
def described (description : Option String) : List (String × Value) :=
  (description.map fun text => ("description", Value.text text)).toList

/-- The reference to a definition. -/
def reference (name : String) : List (String × Value) :=
  [("$ref", .text ("#/definitions/" ++ name))]

/-- The members that describe a shape. -/
def Shape.members : Shape → List (String × Value)
  | text => [("type", .text "string")]
  | boolean => [("type", .text "boolean")]
  | count =>
    [("type", .text "integer"), ("format", .text "uint"), ("minimum", .number (.double 0))]
  | list items => [("type", .text "array"), ("items", ordered items.members)]
  | named name => reference name

/-- The description of a field. A reference stands alone, so it is wrapped where more is said. -/
def Property.value (property : Property) : Value :=
  let more := described property.description ++
    (property.usual.map fun value => ("default", value)).toList
  match property.shape with
  | .named name =>
    if more.isEmpty then ordered (reference name)
    else ordered (("allOf", .array [ordered (reference name)]) :: more)
  | shape => ordered (shape.members ++ more)

/-- The names of fields that must not be left out. -/
def required (properties : List Property) : List (String × Value) :=
  let names := (properties.filter (·.usual.isNone)).map (·.name)
  if names.isEmpty then []
  else [("required", .array ((NameSet.ofList names).keys.map .text))]

/-- A choice among names without descriptions. -/
def enumeration (names : List String) : List (String × Value) :=
  [("type", .text "string"), ("enum", .array (names.map .text))]

/-- The members that describe a choice. Names with descriptions of their own are told apart. -/
def choiceMembers (names : List Choice) : List (String × Value) :=
  let (special, plain) := names.partition (·.description.isSome)
  let common := enumeration (plain.map (·.name))
  if special.isEmpty then common
  else
    [("oneOf", .array ((if plain.isEmpty then [] else [ordered common]) ++
      special.map fun choice =>
        ordered (enumeration [choice.name] ++ described choice.description)))]

/-- The members that describe what a definition defines. -/
def Body.members : Body → List (String × Value)
  | record isOpen properties =>
    [("type", .text "object"),
      ("properties", ordered (properties.map fun property => (property.name, property.value)))] ++
      required properties ++ (if isOpen then [] else [("additionalProperties", .boolean false)])
  | choice names => choiceMembers names

/-- The members of a definition. -/
def Definition.members (definition : Definition) : List (String × Value) :=
  described definition.description ++ definition.body.members

/-- A description as a document. -/
def Document.value (document : Document) : Value :=
  let definitions := document.parts.map fun part => (part.name, ordered part.members)
  ordered ([("$schema", .text "http://json-schema.org/draft-07/schema#"),
    ("title", .text document.whole.name)] ++ document.whole.members ++
    (if definitions.isEmpty then [] else [("definitions", ordered definitions)]))

end PathQuery.Json.Schema
