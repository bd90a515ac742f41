/-
This file says how the nodes and the links of a compiled plan lie along one walk. The walk starts at
the root and visits every node once; its links are all that the plan has, in order. A node has no
more than one link, and a node is found by its identity.
-/

import PathQuery.Proofs.Chain

namespace PathQuery.Plan

/-- The nodes and the links of a plan lie along one walk from a root. -/
structure Along (topology : Topology) (plan : Plan) (root : Node) (rest : List Node) : Prop where
  visits : (root :: rest).Perm plan.nodes
  distinct : ((root :: rest).map (·.id)).Nodup
  joined : Joined topology (root :: rest) plan.links
  isRoot : root.id = Identity.root

/-- The plan of a query: the nodes of its items, each as the item asks for it, and those on the legs
between them, along a walk that meets the items in order. -/
structure LaidOut (query : Query) (topology : Topology) (readers : List Reader)
    (profiles : List String) (plan : Plan) (first : Node) (others hops walk : List Node) :
    Prop where
  nodes : plan.nodes = first :: others ++ hops
  realised : List.Forall₂ (fun item node => Realises topology readers profiles item node.spec)
    query.items (first :: others)
  plain : ∀ hop ∈ hops, IsHop readers profiles hop.spec
  spells : Spells topology (first :: others) hops (first :: walk)
  along : Along topology plan first walk

variable {topology : Topology} {readers : List Reader} {query : Query} {plan : Plan}

/-- The plan of a query is laid out along a walk. -/
theorem laidOut_of_compile (compiled : compile query topology readers = .ok plan) :
    ∃ offer profiles first others hops walk, offered readers = .ok offer ∧
      selected query.profiles offer = .ok profiles ∧
      LaidOut query topology readers profiles plan first others hops walk := by
  obtain ⟨offer, profiles, first, others, hops, walk, given, chosen, realised, spells, extended⟩ :=
    compile_ok compiled
  have formed := extended.built.wellFormed
  have nodes : plan.nodes = first :: others ++ hops := extended.allNodes
  have visits : (first :: walk).Perm plan.nodes := by
    rw [nodes]
    exact spells.perm
  have ids := formed.numbered
  rw [nodes, List.cons_append, List.length_cons, List.range_succ_eq_map, List.map_cons] at ids
  refine ⟨offer, profiles, first, others, hops, walk, given, chosen, ?_⟩
  exact {
    nodes := nodes
    realised := realised
    plain := extended.areHops
    spells := spells
    along := ⟨visits, (visits.map _).nodup_iff.mpr formed.nodup_ids, extended.joined,
      (List.cons.inj ids).1⟩ }

/-- Where no two nodes have the same identity, every node is found by its own. -/
theorem node?_of_mem (distinct : (plan.nodes.map (·.id)).Nodup) {node : Node}
    (member : node ∈ plan.nodes) : plan.node? node.id = some node := by
  obtain ⟨found, held⟩ := Option.isSome_iff_exists.mp (contains_iff.mpr ⟨node, member, rfl⟩)
  obtain ⟨memberToo, same⟩ := node?_some held
  rw [held, List.inj_on_of_nodup_map distinct memberToo member same]

namespace Along

variable {root : Node} {rest : List Node}

theorem node? (along : Along topology plan root rest) {node : Node}
    (member : node ∈ root :: rest) : plan.node? node.id = some node :=
  node?_of_mem ((along.visits.map _).nodup_iff.mp along.distinct) (along.visits.mem_iff.mp member)

theorem set (along : Along topology plan root rest) : plan.root = .ok root := by
  rw [Plan.root, ← along.isRoot, along.node? List.mem_cons_self]

/-- The walk follows the only link of every node but the last, which has none. -/
theorem chain (along : Along topology plan root rest) : Chain topology plan (root :: rest) :=
  along.joined.chain along.distinct [] rfl fun _ member => absurd member List.not_mem_nil

end Along

/-- Along a chain no node has more than one link. -/
theorem Chain.linksFrom {walk : List Node} (chain : Chain topology plan walk) {node : Node}
    (member : node ∈ walk) :
    plan.linksFrom node.id = [] ∨ ∃ link, plan.linksFrom node.id = [link] := by
  induction chain with
  | last ends =>
    rw [List.mem_singleton.mp member]
    exact .inl ends
  | step _ only _ inductionHypothesis =>
    rcases List.mem_cons.mp member with rfl | later
    · exact .inr ⟨_, only⟩
    · exact inductionHypothesis later

end PathQuery.Plan
