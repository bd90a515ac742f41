/-
This file loads schema documents. A document comes from a file or is given in place; it
is read, and then it must be valid.
-/

import PathQuery.File.Tree
import PathQuery.Json.Reader
import PathQuery.Schema.Basic

namespace PathQuery.Schema

/-! ### The forms of the documents -/

/-- The form of an attribute declaration. -/
def attrForm : Json.Form AttrDecl where
  name := "AttrDecl"
  start := ⟨"", false⟩
  fields := [
    .of "field" true Json.text fun name attr => { attr with name },
    .of "isExtra" false Json.boolean fun isExtra attr => { attr with isExtra }]

/-- The form of a type declaration. -/
def typeForm : Json.Form TypeDecl where
  name := "ItemDecl"
  start := ⟨"", []⟩
  fields := [
    .of "type" true Json.text fun written decl => { decl with written },
    .of "attrs" false (Json.list attrForm.read) fun attrs decl => { decl with attrs }]

/-- The form of a document that declares types. -/
def itemsForm : Json.Form Items where
  name := "ItemSchema"
  start := ⟨[]⟩
  fields := [.of "items" false (Json.list typeForm.read) fun types _ => ⟨types⟩]

/-- The form of the two attributes of a link. -/
def mappingForm : Json.Form Mapping where
  name := "MappingDecl"
  start := ⟨"", ""⟩
  fields := [
    .of "from" true Json.text fun source mapping => { mapping with source },
    .of "to" true Json.text fun target mapping => { mapping with target }]

/-- The form of a link declaration. -/
def linkForm : Json.Form LinkDecl where
  name := "LinkDecl"
  start := ⟨"", "", ⟨"", ""⟩⟩
  fields := [
    .of "from" true Json.text fun source decl => { decl with source },
    .of "to" true Json.text fun target decl => { decl with target },
    .of "mapping" true mappingForm.read fun mapping decl => { decl with mapping }]

/-- The form of a document that declares links. -/
def linksForm : Json.Form Links where
  name := "LinkSchema"
  start := ⟨[]⟩
  fields := [.of "links" false (Json.list linkForm.read) fun links _ => ⟨links⟩]

/-- Reads a document that declares types. -/
def Items.ofText (content : String) : Except Json.Error Items :=
  Json.document itemsForm.read content

/-- Reads a document that declares links. -/
def Links.ofText (content : String) : Except Json.Error Links :=
  Json.document linksForm.read content

/-! ### Loading -/

/-- The reasons for which a schema document cannot be loaded. -/
inductive Error where
  | unreadable (path : String) (fault : File.Fault)
  | malformed (origin : String) (error : Json.Error)
  | invalid (origin : String) (complaints : List Complaint)

/-- The message for an error. -/
def Error.message : Error → String
  | unreadable path fault => "cannot read schema " ++ path ++ ": " ++ fault.message
  | malformed origin error => "invalid schema document " ++ origin ++ ": " ++ error.message
  | invalid origin complaints =>
    "invalid schema document " ++ origin ++ ": " ++
      "; ".intercalate (complaints.map Complaint.message)

/-- Where a schema document comes from, and what it holds. -/
inductive Source where
  | file (path : String) (content : Except File.Fault String)
  | inline (content : String)

namespace Source

/-- How the origin of a document is named in messages. -/
def origin : Source → String
  | file path _ => path
  | inline _ => "<inline>"

/-- The text of a document. -/
def content : Source → Except Error String
  | file _ (.ok content) => .ok content
  | file path (.error fault) => .error (.unreadable path fault)
  | inline content => .ok content

/-- Loads a document that declares types. -/
def items (source : Source) : Except Error Items := do
  let content ← source.content
  match Items.ofText content with
  | .error error => .error (.malformed source.origin error)
  | .ok schema =>
    match schema.complaints with
    | [] => .ok schema
    | complaints => .error (.invalid source.origin complaints)

/-- Loads a document that declares links. -/
def links (source : Source) : Except Error Links := do
  let content ← source.content
  match Links.ofText content with
  | .error error => .error (.malformed source.origin error)
  | .ok schema =>
    match schema.complaints with
    | [] => .ok schema
    | complaints => .error (.invalid source.origin complaints)

end Source

end PathQuery.Schema
