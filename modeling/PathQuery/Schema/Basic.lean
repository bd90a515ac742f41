/-
This file defines the schema documents of a reader and what makes them valid. One
document declares resource types with their attributes, the other declares links
between types, each with the pair of attributes whose values have to agree.
-/

import PathQuery.ResourceType

namespace PathQuery

/-- The two attributes that a link compares: one of the record it starts from, one of the records
it leads to. -/
structure Mapping where
  source : String
  target : String
  deriving DecidableEq

namespace Schema

/-- An attribute of a resource type. An extra attribute costs its reader a further call. -/
structure AttrDecl where
  name : String
  isExtra : Bool
  deriving DecidableEq

/-- The declaration of a resource type by its written form. -/
structure TypeDecl where
  written : String
  attrs : List AttrDecl
  deriving DecidableEq

/-- The declaration of a link between two resource types, given by their written forms. -/
structure LinkDecl where
  source : String
  target : String
  mapping : Mapping
  deriving DecidableEq

/-- A document that declares resource types. -/
structure Items where
  types : List TypeDecl
  deriving DecidableEq

/-- A document that declares links. -/
structure Links where
  links : List LinkDecl
  deriving DecidableEq

/-! ### Validity -/

/-- What makes a schema document invalid. -/
inductive Complaint where
  | repeatedType (kind : ResourceType)
  | badType (written : String)
  | namelessAttr (written : String)
  | badEndpoint (written : String)
  | emptyMapping (source target : String)
  deriving DecidableEq

/-- The message for a complaint. -/
def Complaint.message : Complaint → String
  | repeatedType kind => "type " ++ kind.text ++ " is declared more than once"
  | badType written => "item type \"" ++ written ++ "\" must be namespace.type"
  | namelessAttr written => "type " ++ written ++ " has an attribute with empty field"
  | badEndpoint written => "link endpoint \"" ++ written ++ "\" must be namespace.type"
  | emptyMapping source target =>
    "link " ++ source ++ " -> " ++ target ++ " has an empty mapping field"

/-- The complaints about the attributes of a declaration. -/
def TypeDecl.attrComplaints (decl : TypeDecl) : List Complaint :=
  (decl.attrs.filter (·.name.isEmpty)).map fun _ => .namelessAttr decl.written

/-- The complaint about the type of a declaration, where the types declared before it are given. -/
def TypeDecl.typeComplaint? (decl : TypeDecl) (before : List ResourceType) : Option Complaint :=
  match ResourceType.ofText? decl.written with
  | none => some (.badType decl.written)
  | some kind => if before.contains kind then some (.repeatedType kind) else none

/-- The complaints about a list of declarations, where the types declared before it are given. -/
def typeComplaints (before : List ResourceType) : List TypeDecl → List Complaint
  | [] => []
  | decl :: rest =>
    (decl.typeComplaint? before).toList ++ decl.attrComplaints ++
      typeComplaints ((ResourceType.ofText? decl.written).toList ++ before) rest

/-- The complaints about a document that declares types. -/
def Items.complaints (schema : Items) : List Complaint :=
  typeComplaints [] schema.types

/-- The complaint about one end of a link. -/
def endpointComplaint? (written : String) : Option Complaint :=
  match ResourceType.ofText? written with
  | none => some (.badEndpoint written)
  | some _ => none

/-- The complaints about a link. -/
def LinkDecl.complaints (decl : LinkDecl) : List Complaint :=
  (endpointComplaint? decl.source).toList ++ (endpointComplaint? decl.target).toList ++
    if decl.mapping.source.isEmpty || decl.mapping.target.isEmpty then
      [.emptyMapping decl.source decl.target]
    else []

/-- The complaints about a document that declares links. -/
def Links.complaints (schema : Links) : List Complaint :=
  schema.links.flatMap LinkDecl.complaints

end Schema

end PathQuery
