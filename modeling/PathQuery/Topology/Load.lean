/-
This file builds topologies from schema documents. All types are added before any link,
so a link may lead from one document to another; the first declaration that cannot be
added ends the building.
-/

import PathQuery.Schema.Source
import PathQuery.Topology.Basic

namespace PathQuery.Topology

/-- Adds a declared type. -/
def addTypeDecl (topology : Topology) (decl : Schema.TypeDecl) : Except Error Topology :=
  match ResourceType.ofText? decl.written with
  | none => .error (.emptyIdentity decl.written)
  | some kind => topology.addType kind (decl.attrs.map (·.name))

/-- Adds a declared link. -/
def addLinkDecl (topology : Topology) (decl : Schema.LinkDecl) : Except Error Topology :=
  let malformed := Error.malformedLink decl.source decl.target
  match ResourceType.ofText? decl.source, ResourceType.ofText? decl.target with
  | none, _ => .error (malformed "source must be namespace.type")
  | some _, none => .error (malformed "target must be namespace.type")
  | some source, some target =>
    if decl.mapping.source.isEmpty || decl.mapping.target.isEmpty then
      .error (malformed "mapping fields must not be empty")
    else topology.addLink source target decl.mapping

/-- Builds a topology from documents. -/
def build (items : List Schema.Items) (links : List Schema.Links) : Except Error Topology := do
  let typed ← (items.flatMap (·.types)).foldlM addTypeDecl empty
  (links.flatMap (·.links)).foldlM addLinkDecl typed

/-- The reasons for which documents do not give a topology. -/
inductive LoadError where
  | schema (error : Schema.Error)
  | topology (error : Error)

/-- The documents that declare the types and the links of one reader. -/
structure Documents where
  items : Schema.Source
  links : Schema.Source

/-- Loads the documents of one reader. -/
def Documents.load (documents : Documents) : Except Schema.Error (Schema.Items × Schema.Links) := do
  let items ← documents.items.items
  let links ← documents.links.links
  .ok (items, links)

/-- Loads the documents of several readers and builds the topology of them all. -/
def load (documents : List Documents) : Except LoadError Topology :=
  match documents.mapM Documents.load with
  | .error error => .error (.schema error)
  | .ok schemas =>
    match build (schemas.map (·.1)) (schemas.map (·.2)) with
    | .error error => .error (.topology error)
    | .ok topology => .ok topology

end PathQuery.Topology
