/-
This file lists topologies for a reader of plain text: all types, what is known of the
types of one name, and the links along the shortest path between two types.
-/

import PathQuery.Plan.Compile

namespace PathQuery.Topology

/-- The line for a link to a type. -/
def linkLine (target : ResourceType) (mapping : Mapping) : String :=
  "  -> " ++ target.text ++ "  on " ++ mapping.source ++ " = " ++ mapping.target

/-- The list of all types, in order. -/
def typeList (topology : Topology) : String :=
  Text.ofLines (topology.types.values.map (·.kind.text))

/-- The types that a text names: the type of that written form, or else all types of that name. -/
def typesNamed (topology : Topology) (name : String) : Except Error (List ResourceType) :=
  match (ResourceType.ofText? name).filter topology.contains with
  | some kind => .ok [kind]
  | none => (topology.spacesOf name).map (·.map (⟨·, name⟩))

/-- The lines for one type: its attributes and its links. -/
def typeLines (topology : Topology) (kind : ResourceType) : List String :=
  [kind.text, "  attrs: " ++ ", ".intercalate ((topology.attrs? kind).getD [])] ++
    (topology.linksFrom kind).map fun link => linkLine link.target link.mapping

/-- What is known of the types that a text names. -/
def typeDetail (topology : Topology) (name : String) : Except Error String := do
  let kinds ← topology.typesNamed name
  .ok (Text.ofLines (kinds.flatMap topology.typeLines))

/-- The lines for the links along a path. -/
def pathLines (topology : Topology) : List ResourceType → Except Error (List String)
  | source :: target :: rest => do
    let mapping ← topology.mapping source target
    let lines ← topology.pathLines (target :: rest)
    .ok (linkLine target mapping :: lines)
  | _ => .ok []

/-- The shortest path between two types that are mentioned, with its links. -/
def pathDetail (topology : Topology) (source target : TypeMention) : Except Plan.Error String := do
  let source ← source.resolve topology
  let target ← target.resolve topology
  let described := do
    let path ← topology.shortestPath source target
    let lines ← topology.pathLines path
    .ok (Text.ofLines (source.text :: lines))
  match described with
  | .ok text => .ok text
  | .error error => .error (.topology error)

end PathQuery.Topology
