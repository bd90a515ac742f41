/-
This file defines plans. A plan has nodes, each with what to fetch and from which
reader, and links between them that never close a cycle. The first node is the root; the
others are numbered in the order in which they were added.
-/

import PathQuery.Graph.Walk
import PathQuery.Identity
import PathQuery.Plan.Error
import PathQuery.Reader.Basic

namespace PathQuery

namespace Plan

/-- What a node fetches and from where. With no attributes it fetches whole records. -/
structure Spec where
  kind : ResourceType
  profiles : List String
  attrs : List String
  conditions : List Condition
  reader : Reader

/-- A node of a plan. -/
structure Node where
  id : String
  spec : Spec

/-- A link of a plan: the records of the target are those whose target attribute has the value of
the source attribute. -/
structure Link where
  source : String
  target : String
  mapping : Mapping
  deriving DecidableEq

end Plan

/-- Nodes and links in the order in which they were added. -/
structure Plan where
  nodes : List Plan.Node
  links : List Plan.Link

namespace Plan

/-- The plan without nodes. -/
def empty : Plan := ⟨[], []⟩

/-! ### Questions -/

/-- The node with an identity. -/
def node? (plan : Plan) (id : String) : Option Node :=
  plan.nodes.find? (·.id == id)

/-- Whether there is a node with an identity. -/
def contains (plan : Plan) (id : String) : Bool :=
  (plan.node? id).isSome

/-- The root, once it is set. -/
def root (plan : Plan) : Except Error Node :=
  match plan.node? Identity.root with
  | some node => .ok node
  | none => .error .rootNotSet

/-- The links that start from an identity, in the order in which they were added. -/
def linksFrom (plan : Plan) (id : String) : List Link :=
  plan.links.filter (·.source == id)

/-- The links that start from a node. -/
def linksOf (plan : Plan) (id : String) : Except Error (List Link) :=
  if plan.contains id then .ok (plan.linksFrom id) else .error (.unknownNode id)

/-- The links as edges between the identities of nodes. -/
def edges (plan : Plan) : Graph.Edges String :=
  plan.links.map fun link => (link.source, link.target)

/-- The attributes to ask the reader of a node for. A selection is completed by the attributes that
the links of the node start from; without a selection whole records are fetched. -/
def fetchAttrs (plan : Plan) (id : String) : List String :=
  match plan.node? id with
  | none => []
  | some node =>
    if node.spec.attrs.isEmpty then []
    else
      let sources := (plan.linksFrom id).map (·.mapping.source)
      node.spec.attrs ++ (sources.filter fun attr => !node.spec.attrs.contains attr).eraseDups

/-! ### Additions -/

/-- Adds the root, which must be the first node. -/
def setRoot (plan : Plan) (spec : Spec) : Except Error (Plan × String) :=
  if plan.nodes.isEmpty then .ok (⟨[⟨Identity.root, spec⟩], plan.links⟩, Identity.root)
  else .error .rootAlreadySet

/-- The identity of the node that is added after a number of others, not counting the root. -/
def nodeId (number : Nat) : String := "n-" ++ toString number

/-- Adds a node after the root. -/
def addNode (plan : Plan) (spec : Spec) : Except Error (Plan × String) :=
  if plan.nodes.isEmpty then .error .rootNotSet
  else
    let id := nodeId plan.nodes.length
    .ok ({ plan with nodes := plan.nodes ++ [⟨id, spec⟩] }, id)

/-- Links two nodes, unless that would close a cycle. -/
def addLink (plan : Plan) (source target : String) (mapping : Mapping) : Except Error Plan :=
  if !plan.contains source then .error (.unknownNode source)
  else if !plan.contains target then .error (.unknownNode target)
  else if Graph.reaches plan.edges target source then .error (.cycle source target)
  else .ok { plan with links := plan.links ++ [⟨source, target, mapping⟩] }

end Plan

end PathQuery
