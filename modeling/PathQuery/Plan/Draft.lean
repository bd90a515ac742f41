/-
This file defines drafts: plans under construction, in the way they are kept while additions
are made to them one after the other. Nodes and the links that start from them are kept
under identities, and the other nodes are counted. An addition answers or is refused;
either way it leaves a draft behind, to which further additions can be made.
-/

import PathQuery.Graph.Descent
import PathQuery.Plan.Basic

namespace PathQuery

namespace Plan

/-- Values under identities, in the order in which the identities were first given. -/
abbrev Entries (α : Type) := List (String × α)

/-- Changes the value under an identity. A new identity goes last. -/
def Entries.alter {α : Type} (id : String) (change : Option α → α) : Entries α → Entries α
  | [] => [(id, change none)]
  | (other, held) :: rest =>
    if other = id then (id, change (some held)) :: rest
    else (other, held) :: alter id change rest

/-- A plan under construction. The count is that of the nodes added after the root. -/
structure Draft where
  nodes : Entries Node
  links : Entries (List Link)
  root : Option String
  count : Nat

namespace Draft

/-- The draft without nodes. -/
def empty : Draft := ⟨[], [], none, 0⟩

/-! ### Questions -/

/-- Whether there is a node under an identity. -/
def contains (draft : Draft) (id : String) : Bool :=
  (draft.nodes.lookup id).isSome

/-- The links under an identity, in the order in which they were added. -/
def linksFrom (draft : Draft) (id : String) : List Link :=
  (draft.links.lookup id).getD []

/-- All links. -/
def allLinks (draft : Draft) : List Link :=
  draft.links.flatMap (·.2)

/-- The identities that links lead to, under those they start from. -/
def adjacency (draft : Draft) : Graph.Adjacency String :=
  draft.links.map fun entry => (entry.1, entry.2.map (·.target))

/-- Whether links lead from one identity to another in any number of steps. -/
def reaches (draft : Draft) (start goal : String) : Bool :=
  Graph.descends draft.adjacency goal [] [start]

/-! ### Additions -/

/-- A change of a draft, which may be refused after a part of it has been made. -/
abbrev Change := ExceptT Error (StateM Draft)

/-- Puts a node under its identity. -/
def insert (id : String) (spec : Spec) : Change Unit :=
  modify fun draft => { draft with nodes := draft.nodes.alter id fun _ => ⟨id, spec⟩ }

/-- Adds the root, which must be the first node. -/
def setRoot (spec : Spec) : Change String := do
  if (← get).root.isSome then throw .rootAlreadySet
  insert Identity.root spec
  modify fun draft => { draft with root := some Identity.root }
  return Identity.root

/-- Adds a node after the root. -/
def addNode (spec : Spec) : Change String := do
  if (← get).root.isNone then throw .rootNotSet
  modify fun draft => { draft with count := draft.count + 1 }
  let id := nodeId (← get).count
  insert id spec
  return id

/-- Refuses an identity that is not that of a node. -/
def require (id : String) : Change Unit := do
  if !(← get).contains id then throw (.unknownNode id)

/-- Links two nodes, unless that would close a cycle. -/
def addLink (source target : String) (mapping : Mapping) : Change Unit := do
  require source
  require target
  if source = target || (← get).reaches target source then throw (.cycle source target)
  modify fun draft =>
    { draft with
      links := draft.links.alter source fun held =>
        held.getD [] ++ [⟨source, target, mapping⟩] }

end Draft

/-- An addition to a plan. -/
inductive Addition where
  | root (spec : Spec)
  | node (spec : Spec)
  | link (source target : String) (mapping : Mapping)

/-- Makes an addition to a draft. The answer is the identity of a node that is added. -/
def Draft.add : Addition → Draft.Change (Option String)
  | .root spec => some <$> Draft.setRoot spec
  | .node spec => some <$> Draft.addNode spec
  | .link source target mapping => do
    Draft.addLink source target mapping
    return none

/-- The answer of a change, or why it is refused, and the draft that it leaves behind. -/
def Draft.after {α : Type} (draft : Draft) (change : Draft.Change α) : Except Error α × Draft :=
  change.run.run draft

/-- The plan that an addition leads to, with the identity of a node that is added. A refused
addition leads to none. -/
def add (plan : Plan) : Addition → Except Error (Plan × Option String)
  | .root spec => (plan.setRoot spec).map fun made => (made.1, some made.2)
  | .node spec => (plan.addNode spec).map fun made => (made.1, some made.2)
  | .link source target mapping => (plan.addLink source target mapping).map fun next => (next, none)

end Plan

end PathQuery
