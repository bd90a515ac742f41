/-
This file says what every plan has in common that the additions lead to. Its nodes are
numbered in the order in which they came, its links join nodes of the plan, and following
links ends: a link is refused where its target leads back to its source. A walk along links
therefore meets every node at most once and is no longer than the plan.
-/

import Mathlib.Data.List.Nodup
import Mathlib.Data.List.Perm.Subperm
import Mathlib.Order.WellFounded
import PathQuery.Plan.Basic
import PathQuery.Proofs.Encoding
import PathQuery.Proofs.Reachability

namespace PathQuery.Plan

/-! ### Questions about nodes and links -/

/-- A node that is found has the identity that was asked for and belongs to the plan. -/
theorem node?_some {plan : Plan} {id : String} {node : Node} (found : plan.node? id = some node) :
    node ∈ plan.nodes ∧ node.id = id :=
  ⟨List.mem_of_find?_eq_some found, beq_iff_eq.mp (List.find?_some found :)⟩

/-- A node that is found is found by its own identity. -/
theorem node?_self {plan : Plan} {id : String} {node : Node} (found : plan.node? id = some node) :
    plan.node? node.id = some node := by
  rw [(node?_some found).2]
  exact found

theorem contains_of_node? {plan : Plan} {id : String} {node : Node}
    (found : plan.node? id = some node) : plan.contains id = true := by
  rw [contains, found]
  rfl

theorem contains_iff {plan : Plan} {id : String} :
    plan.contains id = true ↔ ∃ node ∈ plan.nodes, node.id = id := by
  unfold contains node?
  rw [List.find?_isSome]
  simp only [beq_iff_eq]

theorem mem_linksFrom {plan : Plan} {id : String} {link : Link} :
    link ∈ plan.linksFrom id ↔ link ∈ plan.links ∧ link.source = id := by
  rw [linksFrom, List.mem_filter, beq_iff_eq]

/-- A link that is added is the last of its source and leaves the links of the others. -/
theorem linksFrom_append (plan : Plan) (added : Link) (id : String) :
    linksFrom { plan with links := plan.links ++ [added] } id =
      if id = added.source then plan.linksFrom id ++ [added] else plan.linksFrom id := by
  rw [linksFrom, List.filter_append, ← linksFrom, List.filter_singleton]
  by_cases same : id = added.source
  · rw [same, beq_self_eq_true, cond_true, if_pos rfl]
  · rw [beq_false_of_ne (Ne.symm same), cond_false, List.append_nil, if_neg same]

theorem leads_of_mem {plan : Plan} {link : Link} (member : link ∈ plan.links) :
    Graph.Leads plan.edges link.source link.target :=
  List.mem_map.mpr ⟨link, member, rfl⟩

theorem root_ok {plan : Plan} {node : Node} (found : plan.root = .ok node) :
    plan.node? Identity.root = some node := by
  unfold root at found
  split at found
  · rename_i held same
    cases found
    exact same
  · cases found

/-! ### The numbering of nodes -/

/-- The identity of the node at a position. -/
def idAt : Nat → String
  | 0 => Identity.root
  | number + 1 => nodeId (number + 1)

theorem nodeId_injective {first second : Nat} (same : nodeId first = nodeId second) :
    first = second := by
  have letters := congrArg String.toList same
  rw [nodeId, nodeId, String.toList_append, String.toList_append, List.append_cancel_left_eq,
    String.toList_inj] at letters
  exact Text.numeral_injective letters

theorem nodeId_ne_root (number : Nat) : nodeId number ≠ Identity.root := by
  intro same
  have letters := congrArg (fun text => text.toList.head?) same
  rw [nodeId, String.toList_append, List.head?_append_of_ne_nil _ (by decide)] at letters
  exact absurd letters (by decide)

theorem idAt_injective : Function.Injective idAt := by
  intro first second same
  cases first with
  | zero =>
    cases second with
    | zero => rfl
    | succ second => exact absurd same.symm (nodeId_ne_root _)
  | succ first =>
    cases second with
    | zero => exact absurd same (nodeId_ne_root _)
    | succ second => exact nodeId_injective same

/-! ### What additions keep -/

/-- The plans that additions lead to. A refused addition leaves no new plan. -/
inductive Built : Plan → Prop where
  | empty : Built .empty
  | setRoot {plan next : Plan} {spec : Spec} {id : String} :
    Built plan → plan.setRoot spec = .ok (next, id) → Built next
  | addNode {plan next : Plan} {spec : Spec} {id : String} :
    Built plan → plan.addNode spec = .ok (next, id) → Built next
  | addLink {plan next : Plan} {source target : String} {mapping : Mapping} :
    Built plan → plan.addLink source target mapping = .ok next → Built next

/-- Nodes are numbered, links join nodes, and following links ends. -/
structure WellFormed (plan : Plan) : Prop where
  numbered : plan.nodes.map (·.id) = (List.range plan.nodes.length).map idAt
  joined : ∀ link ∈ plan.links, plan.contains link.source ∧ plan.contains link.target
  descends : WellFounded fun later earlier => Graph.Leads plan.edges earlier later

namespace WellFormed

theorem empty : WellFormed .empty where
  numbered := rfl
  joined := fun _ member => absurd member List.not_mem_nil
  descends := ⟨fun node => .intro node fun _ leads => absurd leads List.not_mem_nil⟩

/-- A node that is added last with the next number keeps a plan well formed. -/
theorem append_node {plan : Plan} (formed : WellFormed plan) (spec : Spec) :
    WellFormed { plan with nodes := plan.nodes ++ [⟨idAt plan.nodes.length, spec⟩] } where
  numbered := by
    rw [List.map_append, formed.numbered, List.length_append, List.length_singleton,
      List.range_succ, List.map_append]
    rfl
  joined link member := by
    have grows : ∀ id, plan.contains id = true →
        Plan.contains { plan with nodes := plan.nodes ++ [⟨idAt plan.nodes.length, spec⟩] } id
          = true := by
      intro id held
      obtain ⟨node, given, same⟩ := contains_iff.mp held
      exact contains_iff.mpr ⟨node, List.mem_append_left _ given, same⟩
    exact (formed.joined link member).imp (grows _) (grows _)
  descends := formed.descends

theorem setRoot {plan next : Plan} {spec : Spec} {id : String} (formed : WellFormed plan)
    (added : plan.setRoot spec = .ok (next, id)) : WellFormed next := by
  unfold Plan.setRoot at added
  split at added
  · rename_i unset
    cases added
    have none : plan.nodes = [] := List.isEmpty_iff.mp unset
    have appended := formed.append_node spec
    rw [none] at appended
    exact appended
  · cases added

/-- Adding a node gives it the identity of its position. -/
theorem addNode_eq {plan next : Plan} {spec : Spec} {id : String}
    (added : plan.addNode spec = .ok (next, id)) :
    plan.nodes ≠ [] ∧ id = idAt plan.nodes.length ∧
      next = { plan with nodes := plan.nodes ++ [⟨idAt plan.nodes.length, spec⟩] } := by
  unfold Plan.addNode at added
  split at added
  · cases added
  · rename_i set
    cases held : plan.nodes with
    | nil => exact absurd (by rw [held]; rfl) set
    | cons first rest =>
      rw [held] at added
      cases added
      exact ⟨List.cons_ne_nil first rest, rfl, rfl⟩

theorem addNode {plan next : Plan} {spec : Spec} {id : String} (formed : WellFormed plan)
    (added : plan.addNode spec = .ok (next, id)) : WellFormed next := by
  obtain ⟨-, -, rfl⟩ := addNode_eq added
  exact formed.append_node spec

end WellFormed

/-- A link that is accepted joins two nodes, and its target does not lead back to its source. -/
theorem addLink_eq {plan next : Plan} {source target : String} {mapping : Mapping}
    (added : plan.addLink source target mapping = .ok next) :
    plan.contains source = true ∧ plan.contains target = true ∧
      ¬ Relation.ReflTransGen (Graph.Leads plan.edges) target source ∧
      next = { plan with links := plan.links ++ [⟨source, target, mapping⟩] } := by
  unfold Plan.addLink at added
  split at added
  · cases added
  · rename_i known
    split at added
    · cases added
    · rename_i knownToo
      split at added
      · cases added
      · rename_i apart
        cases added
        rw [Bool.not_eq_true', Bool.not_eq_false] at known knownToo
        exact ⟨known, knownToo, fun path => apart (Graph.reaches_iff.mpr path), rfl⟩

/-- A link between two nodes is accepted where its target does not lead back to its source. -/
theorem addLink_ok {plan : Plan} (source target : String) (mapping : Mapping)
    (known : plan.contains source = true) (knownToo : plan.contains target = true)
    (apart : ¬ Relation.ReflTransGen (Graph.Leads plan.edges) target source) :
    plan.addLink source target mapping =
      .ok { plan with links := plan.links ++ [⟨source, target, mapping⟩] } := by
  rw [addLink, known, knownToo, if_neg (by decide), if_neg (by decide),
    if_neg fun back => apart (Graph.reaches_iff.mp back)]

/-- A link to another node is accepted where no link starts from that node yet. -/
theorem addLink_ok_of_leaf {plan : Plan} (source target : String) (mapping : Mapping)
    (known : plan.contains source = true) (knownToo : plan.contains target = true)
    (apart : source ≠ target) (leaf : ∀ link ∈ plan.links, link.source ≠ target) :
    plan.addLink source target mapping =
      .ok { plan with links := plan.links ++ [⟨source, target, mapping⟩] } := by
  refine addLink_ok source target mapping known knownToo fun back => ?_
  rcases back.cases_head with same | ⟨_, leads, -⟩
  · exact apart same.symm
  · obtain ⟨link, member, same⟩ := List.mem_map.mp leads
    exact leaf link member (congrArg Prod.fst same)

namespace WellFormed

theorem addLink {plan next : Plan} {source target : String} {mapping : Mapping}
    (formed : WellFormed plan) (added : plan.addLink source target mapping = .ok next) :
    WellFormed next := by
  obtain ⟨known, knownToo, apart, rfl⟩ := addLink_eq added
  refine ⟨formed.numbered, fun link member => ?_, ?_⟩
  · rcases List.mem_append.mp member with old | new
    · exact formed.joined link old
    · cases List.mem_singleton.mp new
      exact ⟨known, knownToo⟩
  · have edges : Plan.edges { plan with links := plan.links ++ [⟨source, target, mapping⟩] } =
        plan.edges ++ [(source, target)] := by
      rw [Plan.edges, List.map_append]
      rfl
    rw [edges]
    exact Graph.wellFounded_append formed.descends apart

end WellFormed

/-- Additions lead to well formed plans only. -/
theorem Built.wellFormed {plan : Plan} (built : Built plan) : WellFormed plan := by
  induction built with
  | empty => exact .empty
  | setRoot _ added inductionHypothesis => exact inductionHypothesis.setRoot added
  | addNode _ added inductionHypothesis => exact inductionHypothesis.addNode added
  | addLink _ added inductionHypothesis => exact inductionHypothesis.addLink added

/-! ### What the invariant gives -/

namespace WellFormed

variable {plan : Plan}

theorem nodup_ids (formed : WellFormed plan) : (plan.nodes.map (·.id)).Nodup := by
  rw [formed.numbered]
  exact List.nodup_range.map idAt_injective

theorem target_node (formed : WellFormed plan) {link : Link} (member : link ∈ plan.links) :
    ∃ node, plan.node? link.target = some node :=
  Option.isSome_iff_exists.mp (formed.joined link member).2

/-- A walk along links, last node first, meets no node twice. -/
theorem nodup_walk (formed : WellFormed plan) {walk : List String}
    (follows : walk.IsChain fun later earlier => Graph.Leads plan.edges earlier later) :
    walk.Nodup := by
  have closure := follows.imp fun _ _ leads =>
    Relation.TransGen.single (r := fun later earlier => Graph.Leads plan.edges earlier later) leads
  refine closure.pairwise.imp fun {later earlier} path same => ?_
  subst same
  exact formed.descends.transGen.irrefl.irrefl later path

/-- A walk along links from node to node is no longer than the plan. -/
theorem length_walk_le (formed : WellFormed plan) {walk : List String}
    (follows : walk.IsChain fun later earlier => Graph.Leads plan.edges earlier later)
    (known : ∀ id ∈ walk, plan.contains id = true) : walk.length ≤ plan.nodes.length := by
  have within : walk ⊆ plan.nodes.map (·.id) := by
    intro id member
    obtain ⟨node, given, same⟩ := contains_iff.mp (known id member)
    exact List.mem_map.mpr ⟨node, given, same⟩
  have bounded := (List.subperm_of_subset (formed.nodup_walk follows) within).length_le
  rwa [List.length_map] at bounded

end WellFormed

end PathQuery.Plan
