/-
This file describes the documents of a project: the configuration and the two documents
of a reader.
-/

import PathQuery.Config.Basic
import PathQuery.Json.Schema

namespace PathQuery.Project

open Json.Schema

/-- A field that must be given. -/
def needed (name : String) (description : Option String) (shape : Shape) : Property :=
  ⟨name, description, none, shape⟩

/-- A field for a list, which is empty where it is left out. -/
def listed (name : String) (description : Option String) (items : Shape) : Property :=
  ⟨name, description, some (.array []), .list items⟩

/-- The name of a value among named values. -/
def nameOf {α : Type} [DecidableEq α] (values : List (String × α)) (value : α) : Json.Value :=
  .text (((values.find? (·.2 = value)).map (·.1)).getD "")

/-! ### The configuration -/

/-- The description of the formats. -/
def outputDefinition : Definition where
  name := "OutputFormat"
  description := some "Document format of the rendered result."
  body := .choice (OutputFormat.named.map fun (name, _) => ⟨name, none⟩)

/-- What a verbosity adds. -/
def verbosityNote : Verbosity → Option String
  | .normal => none
  | .debug => some "Adds item/group ids and per-item link errors."

/-- The description of the verbosities. -/
def verbosityDefinition : Definition where
  name := "Verbosity"
  description := some "How much internal detail the renderer includes."
  body := .choice (Verbosity.named.map fun (name, verbosity) => ⟨name, verbosityNote verbosity⟩)

/-- The description of the configuration. -/
def configDescription : Document where
  whole :=
    { name := "Config"
      description := none
      body := .record false [
        listed "readers" (some "Glob patterns matching reader directories.") .text,
        ⟨"pool_size", none, some (.number (.integer Config.usual.poolSize)), .count⟩,
        ⟨"verbosity", none, some (nameOf Verbosity.named Config.usual.verbosity),
          .named verbosityDefinition.name⟩,
        ⟨"output", none, some (nameOf OutputFormat.named Config.usual.output),
          .named outputDefinition.name⟩] }
  parts := [outputDefinition, verbosityDefinition]

/-! ### The documents of a reader -/

/-- The description of an attribute declaration. -/
def attrDefinition : Definition where
  name := "AttrDecl"
  description := none
  body := .record true [
    needed "field" none .text,
    ⟨"isExtra", some "Attribute needs an extra per-item call on the reader side.",
      some (.boolean false), .boolean⟩]

/-- The description of a type declaration. -/
def typeDefinition : Definition where
  name := "ItemDecl"
  description := some "One resource type and the attributes it exposes."
  body := .record true [
    needed "type" (some (PathQuery.Document.marked "\"namespace.type\"")) .text,
    listed "attrs" none (.named attrDefinition.name)]

/-- The description of the document for types. -/
def itemsDescription : Document where
  whole :=
    { name := "ItemSchema"
      description := some (PathQuery.Document.marked "\x7b\"items\": [...]\x7d")
      body := .record true [listed "items" none (.named typeDefinition.name)] }
  parts := [attrDefinition, typeDefinition]

/-- The description of the attributes that a link compares. -/
def mappingDefinition : Definition where
  name := "MappingDecl"
  description := some (PathQuery.Document.marked "from" ++
    " attribute value on the source record must equal " ++ PathQuery.Document.marked "to" ++
    " on the target record.")
  body := .record true [needed "from" none .text, needed "to" none .text]

/-- The description of a link declaration. -/
def linkDefinition : Definition where
  name := "LinkDecl"
  description := some "A declared join from one type to another."
  body := .record true [
    needed "from" none .text,
    needed "to" none .text,
    needed "mapping" none (.named mappingDefinition.name)]

/-- The description of the document for links. -/
def linksDescription : Document where
  whole :=
    { name := "LinkSchema"
      description := some (PathQuery.Document.marked "\x7b\"links\": [...]\x7d")
      body := .record true [listed "links" none (.named linkDefinition.name)] }
  parts := [linkDefinition, mappingDefinition]

/-! ### All of them -/

/-- The descriptions of all documents, as one text. -/
def descriptions : String :=
  (ordered [("config", configDescription.value), ("item_schema", itemsDescription.value),
    ("link_schema", linksDescription.value)]).pretty ++ "\n"

end PathQuery.Project
