/-
This file defines the tables of a topology: the way in which its types and links are held while
they are added one after the other. Types are held under their written forms, links under the types
that they start from, and the namespaces of each name in an index of their own. An addition may be
refused after a part of it has been made; either way it leaves tables behind, to which further
additions can be made.
-/

import PathQuery.Plan.Error
import PathQuery.Topology.Basic

namespace PathQuery

namespace Topology

/-- Links under the types that they start from: the types that they lead to, with their mappings, in
the order in which they were added. -/
abbrev LinkTable := List (ResourceType × List (ResourceType × Mapping))

namespace LinkTable

/-- The links under a type. -/
def linksFrom (table : LinkTable) (source : ResourceType) : List (ResourceType × Mapping) :=
  (table.lookup source).getD []

/-- Makes sure that there is a place for the links of a type. -/
def reserve (table : LinkTable) (source : ResourceType) : LinkTable :=
  if (table.lookup source).isSome then table else table ++ [(source, [])]

/-- Adds a link in the place for the links of a type. -/
def put (source target : ResourceType) (mapping : Mapping) : LinkTable → LinkTable
  | [] => []
  | (other, held) :: rest =>
    if other = source then (other, held ++ [(target, mapping)]) :: rest
    else (other, held) :: put source target mapping rest

end LinkTable

/-- Types under their written forms, links under the types that they start from, and under each name
the namespaces that have a type of it. -/
structure Tables where
  types : Dict TopologyType
  links : LinkTable
  index : Dict NameSet

namespace Tables

/-- The tables without types. -/
def empty : Tables := ⟨.empty, [], .empty⟩

/-! ### Questions -/

/-- Whether a type is held. -/
def contains (tables : Tables) (kind : ResourceType) : Bool :=
  (tables.types.get? kind.text).isSome

/-- The attributes of a type that is held. -/
def attrs? (tables : Tables) (kind : ResourceType) : Option (List String) :=
  (tables.types.get? kind.text).map (·.attrs)

/-- The links of a type, in the order in which they were added. -/
def linksFrom (tables : Tables) (source : ResourceType) : List (ResourceType × Mapping) :=
  tables.links.linksFrom source

/-- The mapping of the link from one type to another, where there is one. -/
def mapping (tables : Tables) (source target : ResourceType) : Except Error Mapping :=
  match (tables.linksFrom source).lookup target with
  | some mapping => .ok mapping
  | none => .error (.noLink source target)

/-- The namespaces that the index has under a name, in order, where it has the name. -/
def spacesOf (tables : Tables) (name : String) : Except Error (List String) :=
  match tables.index.get? name with
  | some spaces => .ok spaces.keys
  | none => .error (.unknownName name)

/-- The number of types. -/
def size (tables : Tables) : Nat := tables.types.size

/-- The number of links. -/
def linkCount (tables : Tables) : Nat := (tables.links.flatMap (·.2)).length

/-- The type that a bare name stands for: that of the one namespace which the index has under it. -/
def resolve (tables : Tables) (name : String) : Except Plan.Error ResourceType :=
  if name.isEmpty then .error (.badMention name)
  else
    match tables.spacesOf name with
    | .error error => .error (.topology error)
    | .ok [space] =>
      if tables.contains ⟨space, name⟩ then .ok ⟨space, name⟩
      else .error (.topology (.unknownType ⟨space, name⟩))
    | .ok spaces => .error (.ambiguousType name spaces)

/-! ### Additions -/

/-- A change of tables, which may be refused after a part of it has been made. -/
abbrev Change := ExceptT Error (StateM Tables)

/-- Puts a namespace under a name in the index. -/
def note (kind : ResourceType) : Change Unit :=
  modify fun tables =>
    let spaces := (tables.index.get? kind.name).getD .empty
    { tables with index := tables.index.insert kind.name (spaces.insert kind.space ()) }

/-- Adds a type. It needs a namespace and a name, and its written form must be new. -/
def addType (kind : ResourceType) (attrs : List String) : Change Unit := do
  if kind.space.isEmpty || kind.name.isEmpty then throw (.emptyIdentity kind.text)
  if (← get).contains kind then throw (.repeatedType kind)
  note kind
  modify fun tables =>
    { tables with types := tables.types.insert kind.text ⟨kind, attrs.eraseDups⟩ }

/-- Refuses a type that is not held. -/
def require (kind : ResourceType) : Change Unit := do
  if !(← get).contains kind then throw (.unknownType kind)

/-- Adds a link between two types that are held and not linked in this direction yet. The place for
the links of the first is made before this is looked at. -/
def addLink (source target : ResourceType) (mapping : Mapping) : Change Unit := do
  require source
  require target
  modify fun tables => { tables with links := tables.links.reserve source }
  if (((← get).linksFrom source).lookup target).isSome then throw (.repeatedLink source target)
  modify fun tables => { tables with links := tables.links.put source target mapping }

/-- The answer of a change, or why it is refused, and the tables that it leaves behind. -/
def after {α : Type} (tables : Tables) (change : Change α) : Except Error α × Tables :=
  change.run.run tables

end Tables

end Topology

end PathQuery
