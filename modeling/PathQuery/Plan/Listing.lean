/-
This file lists a plan for a reader of plain text: its nodes in the order in which they
were added, and its links grouped by the node they start from.
-/

import PathQuery.Plan.Basic

namespace PathQuery.Plan

/-- The width of the column for the identities of nodes. -/
def idWidth : Nat := 8

/-- A text filled up with spaces to a width. -/
def padded (width : Nat) (text : String) : String :=
  text ++ String.ofList (List.replicate (width - text.length) ' ')

/-- The start of the lines that say more about a node. -/
def detailIndent : String := "           "

/-- The lines for a node. -/
def Node.lines (node : Node) : List String :=
  let spec := node.spec
  let attrs := if spec.attrs.isEmpty then "*" else ",".intercalate spec.attrs
  let conditions :=
    if spec.conditions.isEmpty then []
    else [detailIndent ++ "where " ++ " and ".intercalate (spec.conditions.map Condition.text)]
  ["  " ++ padded idWidth node.id ++ " " ++ spec.kind.text ++ "  attrs=" ++ attrs] ++ conditions ++
    [detailIndent ++ "profiles=" ++ ",".intercalate spec.profiles]

/-- The line for a link. -/
def Link.line (link : Link) : String :=
  "  " ++ link.source ++ " -> " ++ link.target ++ "  on " ++ link.mapping.source ++ " = " ++
    link.mapping.target

/-- The links grouped by the node they start from, in the order of the first link of each. -/
def groupedLinks (plan : Plan) : List Link :=
  (plan.links.map (·.source)).eraseDups.flatMap plan.linksFrom

/-- The lines of the listing. -/
def lines (plan : Plan) : List String :=
  ["nodes (" ++ toString plan.nodes.length ++ "):"] ++ plan.nodes.flatMap Node.lines ++
    ["edges (" ++ toString plan.links.length ++ "):"] ++ plan.groupedLinks.map Link.line

/-- The listing of a plan. -/
def listing (plan : Plan) : String :=
  Text.ofLines plan.lines

end PathQuery.Plan
