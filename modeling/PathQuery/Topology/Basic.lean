/-
This file defines topologies: resource types with their attributes, and links between
them. Types and links are added one at a time, and each addition is checked. Types are
found by their written form and listed in its order; the links of a type are listed in
the order in which they were added. A path between two types is a shortest walk along links.
-/

import PathQuery.Dict
import PathQuery.Graph.Walk
import PathQuery.Schema.Basic

namespace PathQuery

/-- A resource type of a topology, with its attributes in order and without repetition. -/
structure TopologyType where
  kind : ResourceType
  attrs : List String
  deriving DecidableEq

/-- A link of a topology. -/
structure TopologyLink where
  source : ResourceType
  target : ResourceType
  mapping : Mapping
  deriving DecidableEq

/-- Resource types under their written forms, and the links between them in the order in which
they were added. -/
structure Topology where
  types : Dict TopologyType
  links : List TopologyLink
  deriving DecidableEq

namespace Topology

/-- The reasons for refusing an addition or a question. -/
inductive Error where
  | repeatedType (kind : ResourceType)
  | emptyIdentity (written : String)
  | malformedLink (source target : String) (reason : String)
  | repeatedLink (source target : ResourceType)
  | unknownType (kind : ResourceType)
  | unknownName (name : String)
  | noLink (source target : ResourceType)
  | noPath (source target : ResourceType)
  deriving DecidableEq

/-- The message for an error. -/
def Error.message : Error → String
  | repeatedType kind => "type " ++ kind.text ++ " is declared more than once"
  | emptyIdentity written =>
    "type identity has an empty namespace or type: \"" ++ written ++ "\""
  | malformedLink source target reason =>
    "malformed link " ++ source ++ " -> " ++ target ++ ": " ++ reason
  | repeatedLink source target =>
    "link " ++ source.text ++ " -> " ++ target.text ++ " is declared more than once"
  | unknownType kind => "type " ++ kind.text ++ " not found"
  | unknownName name => "type \"" ++ name ++ "\" not found"
  | noLink source target => "no link from " ++ source.text ++ " to " ++ target.text
  | noPath source target => "no path from " ++ source.text ++ " to " ++ target.text

/-- The topology without types. -/
def empty : Topology := ⟨.empty, []⟩

/-! ### Questions -/

/-- The type that is registered under the written form of a type. -/
def type? (topology : Topology) (kind : ResourceType) : Option TopologyType :=
  topology.types.get? kind.text

/-- Whether a type is registered. -/
def contains (topology : Topology) (kind : ResourceType) : Bool :=
  (topology.type? kind).isSome

/-- The attributes of a type that is registered. -/
def attrs? (topology : Topology) (kind : ResourceType) : Option (List String) :=
  (topology.type? kind).map (·.attrs)

/-- Whether a type is registered with an attribute. -/
def supports (topology : Topology) (kind : ResourceType) (attr : String) : Bool :=
  ((topology.attrs? kind).getD []).contains attr

/-- The namespaces that have a type of a name, in order. -/
def spaces (topology : Topology) (name : String) : List String :=
  let named := topology.types.values.filter (·.kind.name == name)
  (NameSet.ofList (named.map (·.kind.space))).keys

/-- The namespaces that have a type of a name, where there is one. -/
def spacesOf (topology : Topology) (name : String) : Except Error (List String) :=
  match topology.spaces name with
  | [] => .error (.unknownName name)
  | spaces => .ok spaces

/-- The links of a type, in the order in which they were added. -/
def linksFrom (topology : Topology) (source : ResourceType) : List TopologyLink :=
  topology.links.filter (·.source == source)

/-- The mapping of the link from one type to another. -/
def mapping? (topology : Topology) (source target : ResourceType) : Option Mapping :=
  ((topology.linksFrom source).find? (·.target == target)).map (·.mapping)

/-- The mapping of the link from one type to another, where there is one. -/
def mapping (topology : Topology) (source target : ResourceType) : Except Error Mapping :=
  match topology.mapping? source target with
  | some mapping => .ok mapping
  | none => .error (.noLink source target)

/-! ### Additions -/

/-- Adds a type. It needs a namespace and a name, and its written form must be new. -/
def addType (topology : Topology) (kind : ResourceType) (attrs : List String) :
    Except Error Topology :=
  if kind.space.isEmpty || kind.name.isEmpty then .error (.emptyIdentity kind.text)
  else if topology.contains kind then .error (.repeatedType kind)
  else .ok { topology with types := topology.types.insert kind.text ⟨kind, attrs.eraseDups⟩ }

/-- The error for the first of two types that is not registered, if there is one. -/
def unknown? (topology : Topology) (source target : ResourceType) : Option Error :=
  if !topology.contains source then some (.unknownType source)
  else if !topology.contains target then some (.unknownType target)
  else none

/-- Adds a link between two types that are registered and not linked in this direction yet. -/
def addLink (topology : Topology) (source target : ResourceType) (mapping : Mapping) :
    Except Error Topology :=
  match topology.unknown? source target with
  | some error => .error error
  | none =>
    if (topology.mapping? source target).isSome then .error (.repeatedLink source target)
    else .ok { topology with links := topology.links ++ [⟨source, target, mapping⟩] }

/-! ### Paths -/

/-- The links as edges between types. -/
def edges (topology : Topology) : Graph.Edges ResourceType :=
  topology.links.map fun link => (link.source, link.target)

/-- The shortest path from one type to another, with both ends: a walk with the fewest links, and of
several the one whose links were added earliest. -/
def shortestPath (topology : Topology) (source target : ResourceType) :
    Except Error (List ResourceType) :=
  match topology.unknown? source target with
  | some error => .error error
  | none =>
    match Graph.shortestWalk? topology.edges source target with
    | some path => .ok path
    | none => .error (.noPath source target)

end Topology

end PathQuery
