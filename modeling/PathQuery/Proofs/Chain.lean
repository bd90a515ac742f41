/-
This file proves that a query compiles to a chain. The nodes of the items come first, in the order
of the query, and the nodes in between follow in the order of the walk. The links lead from the root
to the node of the last item: every node but the last has one link, and along them the items are met
in the order of the query, with the types of a shortest path between one and the next. The library
is imported whole for the equations by which `cbv` evaluates the example.
-/

import Mathlib
import PathQuery.Proofs.Construction
import PathQuery.Proofs.Items

namespace PathQuery.Plan

/-! ### Walks through a plan -/

/-- The place of a node. -/
def Node.place (node : Node) : Place := ⟨node.id, node.spec.kind⟩

/-- The types between those of two items: none where the types are equal and there is a link of the
type to itself, and otherwise those of the shortest path. -/
inductive Leg (topology : Topology) :
    (source target : ResourceType) → List ResourceType → Prop where
  | same {kind : ResourceType} {mapping : Mapping} :
    topology.mapping kind kind = .ok mapping → Leg topology kind kind []
  | path {source target : ResourceType} {between : List ResourceType} : source ≠ target →
    topology.shortestPath source target = .ok (source :: (between ++ [target])) →
    Leg topology source target between

/-- A walk that meets the nodes of items in order, with other nodes on the legs between them. -/
inductive Spells (topology : Topology) : (items hops walk : List Node) → Prop where
  | last (node : Node) : Spells topology [node] [] [node]
  | leg {first second : Node} {items hops between walk : List Node} :
    Leg topology first.spec.kind second.spec.kind (between.map (·.spec.kind)) →
    Spells topology (second :: items) hops (second :: walk) →
    Spells topology (first :: second :: items) (between ++ hops)
      (first :: (between ++ second :: walk))

/-- The links along a walk, with the mappings of the topology. -/
inductive Joined (topology : Topology) : List Node → List Link → Prop where
  | last (node : Node) : Joined topology [node] []
  | step {first second : Node} {rest : List Node} {links : List Link} {mapping : Mapping} :
    topology.mapping first.spec.kind second.spec.kind = .ok mapping →
    Joined topology (second :: rest) links →
    Joined topology (first :: second :: rest) (⟨first.id, second.id, mapping⟩ :: links)

/-- A walk along the only links of its nodes, to a node without links. -/
inductive Chain (topology : Topology) (plan : Plan) : List Node → Prop where
  | last {node : Node} : plan.linksFrom node.id = [] → Chain topology plan [node]
  | step {first second : Node} {rest : List Node} {mapping : Mapping} :
    topology.mapping first.spec.kind second.spec.kind = .ok mapping →
    plan.linksFrom first.id = [⟨first.id, second.id, mapping⟩] →
    Chain topology plan (second :: rest) → Chain topology plan (first :: second :: rest)

variable {topology : Topology}

/-- A walk meets the items and the nodes on the legs, each once. -/
theorem Spells.perm {items hops walk : List Node} (spells : Spells topology items hops walk) :
    walk.Perm (items ++ hops) := by
  induction spells with
  | last => exact .refl _
  | @leg first second items hops between walk _ _ inductionHypothesis =>
    refine List.Perm.cons first ?_
    refine (inductionHypothesis.append_left between).trans ?_
    exact List.perm_append_comm_assoc between (second :: items) hops

theorem Spells.ends {items hops walk : List Node} (spells : Spells topology items hops walk) :
    walk.head? = items.head? ∧ walk.getLast? = items.getLast? := by
  induction spells with
  | last => exact ⟨rfl, rfl⟩
  | leg _ _ inductionHypothesis =>
    refine ⟨rfl, ?_⟩
    rw [List.getLast?_cons_cons, ← inductionHypothesis.2, ← List.cons_append,
      List.getLast?_append_of_ne_nil _ (List.cons_ne_nil _ _)]

theorem Joined.length {walk : List Node} {links : List Link} (joined : Joined topology walk links) :
    links.length + 1 = walk.length := by
  induction joined with
  | last => rfl
  | step _ _ inductionHypothesis =>
    rw [List.length_cons, List.length_cons, inductionHypothesis]

/-- The links along two walks that meet make up those along both. -/
theorem Joined.append {first : List Node} {meeting : Node} {second : List Node}
    {links others : List Link} (joined : Joined topology (first ++ [meeting]) links)
    (joinedToo : Joined topology (meeting :: second) others) :
    Joined topology (first ++ meeting :: second) (links ++ others) := by
  induction first generalizing links with
  | nil =>
    cases joined
    exact joinedToo
  | cons node rest inductionHypothesis =>
    cases rest with
    | nil =>
      obtain _ | ⟨mapped, joined⟩ := joined
      cases joined
      exact .step mapped joinedToo
    | cons next rest =>
      obtain _ | ⟨mapped, joined⟩ := joined
      exact .step mapped (inductionHypothesis joined)

theorem Joined.source_mem {walk : List Node} {links : List Link}
    (joined : Joined topology walk links) : ∀ link ∈ links, link.source ∈ walk.map (·.id) := by
  induction joined with
  | last => exact fun _ member => absurd member List.not_mem_nil
  | step _ _ inductionHypothesis =>
    intro link member
    rcases List.mem_cons.mp member with rfl | later
    · exact List.mem_cons_self
    · exact List.mem_cons_of_mem _ (inductionHypothesis link later)

theorem filter_source_eq_nil {links : List Link} {id : String}
    (elsewhere : ∀ link ∈ links, link.source ≠ id) : links.filter (·.source == id) = [] :=
  List.filter_eq_nil_iff.mpr fun link member => by
    rw [beq_iff_eq]
    exact elsewhere link member

/-- Where a plan has no other links than those along a walk of different nodes, the walk is a
chain. The links of the nodes before the walk are put aside in the induction. -/
theorem Joined.chain {plan : Plan} {walk : List Node} {links : List Link}
    (joined : Joined topology walk links) (distinct : (walk.map (·.id)).Nodup) :
    ∀ before, plan.links = before ++ links →
      (∀ link ∈ before, link.source ∉ walk.map (·.id)) → Chain topology plan walk := by
  induction joined with
  | last node =>
    intro before all apart
    refine .last ?_
    rw [linksFrom, all, List.append_nil]
    refine filter_source_eq_nil fun link member same => apart link member ?_
    rw [same]
    exact List.mem_cons_self
  | @step first second rest links mapping mapped joined inductionHypothesis =>
    intro before all apart
    obtain ⟨fresh, distinct⟩ := List.nodup_cons.mp distinct
    refine .step mapped ?_ (inductionHypothesis distinct
      (before ++ [⟨first.id, second.id, mapping⟩]) (by rw [all, List.append_assoc]; rfl) ?_)
    · have earlier : before.filter (·.source == first.id) = [] :=
        filter_source_eq_nil fun link member same => apart link member (by
          rw [same]
          exact List.mem_cons_self)
      have later : links.filter (·.source == first.id) = [] :=
        filter_source_eq_nil fun link member same => fresh (by
          show first.id ∈ _
          rw [← same]
          exact joined.source_mem link member)
      have here : ((⟨first.id, second.id, mapping⟩ : Link).source == first.id) = true :=
        beq_self_eq_true first.id
      rw [linksFrom, all, List.filter_append, earlier, List.nil_append, List.filter_cons,
        if_pos here, later]
    · intro link member
      rcases List.mem_append.mp member with old | new
      · exact fun given => apart link old (List.mem_cons_of_mem _ given)
      · cases List.mem_singleton.mp new
        exact fresh

/-! ### What a compilation adds -/

variable {readers : List Reader} {profiles : List String}

/-- Adding the nodes of items adds just these, in order. -/
theorem place_ok {specs : List Spec} : ∀ {plan next : Plan} {places : List Place}, plan.Built →
    place specs plan = .ok (next, places) →
    ∃ nodes, next.Built ∧ next.nodes = plan.nodes ++ nodes ∧ next.links = plan.links ∧
      nodes.map (·.spec) = specs ∧ places = nodes.map Node.place := by
  induction specs with
  | nil =>
    intro plan next places built placed
    cases placed
    exact ⟨[], built, (List.append_nil _).symm, rfl, rfl, rfl⟩
  | cons spec rest inductionHypothesis =>
    intro plan next places built placed
    have first : ∃ (grown : Plan) (id : String), grown.Built ∧
        grown.nodes = plan.nodes ++ [⟨id, spec⟩] ∧ grown.links = plan.links ∧
        (place rest grown >>= fun placed => .ok (placed.1, ⟨id, spec.kind⟩ :: placed.2)) =
          .ok (next, places) := by
      rw [place] at placed
      split at placed
      · rename_i unset
        obtain ⟨⟨grown, id⟩, added, placed⟩ := bind_eq_ok.mp placed
        have grownBuilt := Built.setRoot built added
        rw [setRoot, if_pos unset] at added
        cases added
        rw [List.isEmpty_iff.mp unset]
        exact ⟨_, _, grownBuilt, rfl, rfl, placed⟩
      · obtain ⟨⟨grown, id⟩, added, placed⟩ := bind_eq_ok.mp placed
        have grownBuilt := Built.addNode built added
        obtain ⟨-, rfl, rfl⟩ := WellFormed.addNode_eq added
        exact ⟨_, _, grownBuilt, rfl, rfl, placed⟩
    obtain ⟨grown, id, grownBuilt, grownNodes, grownLinks, placed⟩ := first
    obtain ⟨⟨last, others⟩, continued, ended⟩ := bind_eq_ok.mp placed
    cases ended
    obtain ⟨nodes, builtLast, lastNodes, lastLinks, given, rfl⟩ :=
      inductionHypothesis grownBuilt continued
    refine ⟨⟨id, spec⟩ :: nodes, builtLast, ?_, lastLinks.trans grownLinks, ?_, rfl⟩
    · rw [lastNodes, grownNodes, List.append_assoc]
      rfl
    · rw [List.map_cons, given]

theorem mappingFor_ok {source target : ResourceType} {mapping : Mapping}
    (mapped : mappingFor topology source target = .ok mapping) :
    topology.mapping source target = .ok mapping := by
  unfold mappingFor at mapped
  split at mapped
  · rename_i held
    cases mapped
    exact held
  · cases mapped

/-- A shortest path between two different types takes a step. -/
theorem shortestPath_steps {source target : ResourceType} {path : List ResourceType}
    (different : source ≠ target) (found : topology.shortestPath source target = .ok path) :
    ∃ rest, path = source :: rest ∧ rest.getLast? = some target := by
  unfold Topology.shortestPath at found
  split at found
  · cases found
  · split at found
    · rename_i walk held
      cases found
      exact Graph.shortestWalk?_steps different held
    · cases found

/-- What is added on the way from one node to another. -/
structure Extended (topology : Topology) (readers : List Reader) (profiles : List String)
    (plan next : Plan) (hops walk : List Node) (links : List Link) : Prop where
  built : next.Built
  allNodes : next.nodes = plan.nodes ++ hops
  allLinks : next.links = plan.links ++ links
  areHops : ∀ hop ∈ hops, IsHop readers profiles hop.spec
  joined : Joined topology walk links

/-- Linking a node along types that end with that of another adds a node for every type but the
last, and links them on the way. -/
theorem connectAlong_ok {goal : Node} {path : List ResourceType} :
    ∀ {current : Node} {plan next : Plan}, plan.Built →
    connectAlong topology readers profiles goal.place current.place path plan = .ok next →
    path.getLast? = some goal.spec.kind →
    ∃ between links, between.map (·.spec.kind) = path.dropLast ∧
      Extended topology readers profiles plan next between (current :: (between ++ [goal]))
        links := by
  induction path with
  | nil =>
    intro _ _ _ _ _ same
    cases same
  | cons kind rest inductionHypothesis =>
    intro current plan next built connected ends
    cases rest with
    | nil =>
      cases ends
      obtain ⟨mapping, mapped, added⟩ := bind_eq_ok.mp connected
      have grown := Built.addLink built added
      obtain ⟨-, -, -, rfl⟩ := addLink_eq added
      exact ⟨[], [⟨current.id, goal.id, mapping⟩], rfl, grown, (List.append_nil _).symm, rfl,
        fun _ member => absurd member List.not_mem_nil, .step (mappingFor_ok mapped) (.last goal)⟩
    | cons second rest =>
      obtain ⟨spec, asked, connected⟩ := bind_eq_ok.mp connected
      obtain ⟨⟨grown, id⟩, added, connected⟩ := bind_eq_ok.mp connected
      obtain ⟨mapping, mapped, connected⟩ := bind_eq_ok.mp connected
      obtain ⟨linked, joined, connected⟩ := bind_eq_ok.mp connected
      obtain ⟨same, hop⟩ := hopSpec_ok asked
      subst same
      have builtNode := Built.addNode built added
      have builtLink := Built.addLink builtNode joined
      obtain ⟨-, sameId, sameNodes⟩ := WellFormed.addNode_eq added
      obtain ⟨-, -, -, sameLinks⟩ := addLink_eq joined
      obtain ⟨between, links, kinds, extended⟩ :=
        @inductionHypothesis ⟨id, spec⟩ _ _ builtLink connected ends
      refine ⟨⟨id, spec⟩ :: between, ⟨current.id, id, mapping⟩ :: links, ?_, extended.built, ?_, ?_,
        ?_, .step (mappingFor_ok mapped) extended.joined⟩
      · rw [List.map_cons, kinds]
        rfl
      · rw [extended.allNodes, sameLinks, sameNodes, sameId, List.append_assoc]
        rfl
      · rw [extended.allLinks, sameLinks, sameNodes, List.append_assoc]
        rfl
      · intro other member
        rcases List.mem_cons.mp member with rfl | later
        · exact hop
        · exact extended.areHops other later

theorem connect_ok {source target : Node} {plan next : Plan} (built : plan.Built)
    (connected : connect topology readers profiles source.place target.place plan = .ok next) :
    ∃ between links, Leg topology source.spec.kind target.spec.kind (between.map (·.spec.kind)) ∧
      Extended topology readers profiles plan next between (source :: (between ++ [target]))
        links := by
  unfold connect at connected
  split at connected
  · rename_i same
    split at connected
    · rename_i mapping found
      have mapped : topology.mapping source.spec.kind target.spec.kind = .ok mapping := by
        rw [Topology.mapping, show topology.mapping? source.spec.kind target.spec.kind =
          some mapping from found]
      have grown := Built.addLink built connected
      obtain ⟨-, -, -, rfl⟩ := addLink_eq connected
      refine ⟨[], [⟨source.id, target.id, mapping⟩], ?_, grown, (List.append_nil _).symm, rfl,
        fun _ member => absurd member List.not_mem_nil, .step mapped (.last target)⟩
      have kinds : source.spec.kind = target.spec.kind := same
      rw [kinds] at mapped ⊢
      exact .same mapped
    · cases connected
  · rename_i different
    split at connected
    · cases connected
    · rename_i path found
      obtain ⟨rest, rfl, ends⟩ := shortestPath_steps different found
      obtain ⟨between, links, kinds, extended⟩ := connectAlong_ok built connected ends
      refine ⟨between, links, .path different ?_, extended⟩
      have whole : rest.dropLast ++ [target.spec.kind] = rest :=
        List.dropLast_append_getLast? target.spec.kind ends
      rw [kinds, List.tail_cons, whole]
      exact found

/-- Connecting every node of a list with the next one adds a walk that spells the list. -/
theorem connectAll_ok {others : List Node} :
    ∀ {first : Node} {plan next : Plan}, plan.Built →
    connectAll topology readers profiles ((first :: others).map Node.place) plan = .ok next →
    ∃ hops walk links, Spells topology (first :: others) hops (first :: walk) ∧
      Extended topology readers profiles plan next hops (first :: walk) links := by
  induction others with
  | nil =>
    intro first plan next built connected
    cases connected
    exact ⟨[], [], [], .last first, built, (List.append_nil _).symm, (List.append_nil _).symm,
      fun _ member => absurd member List.not_mem_nil, .last first⟩
  | cons second rest inductionHypothesis =>
    intro first plan next built connected
    obtain ⟨grown, joined, connected⟩ := bind_eq_ok.mp connected
    obtain ⟨between, links, leg, extended⟩ := connect_ok built joined
    obtain ⟨hops, walk, others, spells, further⟩ := inductionHypothesis extended.built connected
    have joined : Joined topology (first :: between ++ second :: walk) (links ++ others) :=
      Joined.append extended.joined further.joined
    refine ⟨between ++ hops, between ++ second :: walk, links ++ others, .leg leg spells,
      further.built, ?_, ?_, ?_, joined⟩
    · rw [further.allNodes, extended.allNodes, List.append_assoc]
    · rw [further.allLinks, extended.allLinks, List.append_assoc]
    · intro hop member
      rcases List.mem_append.mp member with early | late
      · exact extended.areHops hop early
      · exact further.areHops hop late

/-! ### Compiled plans -/

/-- A plan is one chain for a query: the nodes of its items and those in between are met in a walk
along the only links, from the root to the last item. -/
structure ChainFor (query : Query) (topology : Topology) (readers : List Reader)
    (profiles : List String) (plan : Plan) (items hops walk : List Node) : Prop where
  /-- The nodes of the items come first. -/
  nodes : plan.nodes = items ++ hops
  /-- Nodes are numbered in the order in which they were added. -/
  numbered : plan.nodes.map (·.id) = (List.range plan.nodes.length).map idAt
  /-- Every item of the query has the node that it asks for. -/
  realised : List.Forall₂ (fun item node => Realises topology readers profiles item node.spec)
    query.items items
  /-- The other nodes are for whole records, under no condition. -/
  plain : ∀ hop ∈ hops, IsHop readers profiles hop.spec
  /-- All nodes are read under the same profiles. -/
  alike : ∀ node ∈ plan.nodes, node.spec.profiles = profiles
  /-- There is one link fewer than there are nodes. -/
  count : plan.links.length + 1 = plan.nodes.length
  /-- The walk starts at the root. -/
  starts : walk.head?.map (·.id) = some Identity.root
  /-- The walk follows the only link of every node but the last, which has none. -/
  chain : Chain topology plan walk
  /-- The walk visits every node once. -/
  visits : walk.Perm plan.nodes ∧ (walk.map (·.id)).Nodup
  /-- The walk meets the items in order, and shortest paths between them. -/
  spells : Spells topology items hops walk
  /-- The walk ends at the node of the last item. -/
  ends : walk.getLast? = items.getLast?

/-- A query that compiles gives a plan that additions lead to, with the nodes of its items first and
a walk that spells them. -/
theorem compile_ok {query : Query} {plan : Plan}
    (compiled : compile query topology readers = .ok plan) :
    ∃ offer profiles first others hops walk, offered readers = .ok offer ∧
      selected query.profiles offer = .ok profiles ∧
      List.Forall₂ (fun item node => Realises topology readers profiles item node.spec)
        query.items (first :: others) ∧
      Spells topology (first :: others) hops (first :: walk) ∧
      Extended topology readers profiles ⟨first :: others, []⟩ plan hops (first :: walk)
        plan.links := by
  obtain ⟨offer, given, compiled⟩ := bind_eq_ok.mp compiled
  obtain ⟨profiles, chosen, compiled⟩ := bind_eq_ok.mp compiled
  obtain ⟨specs, asked, compiled⟩ := bind_eq_ok.mp compiled
  obtain ⟨⟨placed, places⟩, added, compiled⟩ := bind_eq_ok.mp compiled
  obtain ⟨nodes, built, allNodes, allLinks, same, rfl⟩ := place_ok .empty added
  have realised : List.Forall₂ (fun item node => Realises topology readers profiles item node.spec)
      query.items nodes := by
    refine List.forall₂_map_right_iff.mp ?_
    rw [same]
    exact (mapM_eq_ok_iff.mp asked).imp fun _ _ => specOf_ok
  cases nodes with
  | nil => cases realised
  | cons first others =>
    obtain ⟨hops, walk, links, spells, extended⟩ := connectAll_ok built compiled
    have empty : placed = ⟨first :: others, []⟩ := (Plan.mk.injEq ..).mpr ⟨allNodes, allLinks⟩
    subst empty
    have whole : plan.links = links := extended.allLinks
    rw [← whole] at extended
    exact ⟨offer, profiles, first, others, hops, walk, given, chosen, realised, spells, extended⟩

theorem built_of_compile {query : Query} {plan : Plan}
    (compiled : compile query topology readers = .ok plan) : plan.Built := by
  obtain ⟨_, _, _, _, _, _, -, -, -, -, extended⟩ := compile_ok compiled
  exact extended.built

/-- A query that compiles gives one chain for its items. -/
theorem compile_chain {query : Query} {plan : Plan}
    (compiled : compile query topology readers = .ok plan) :
    ∃ offer profiles items hops walk, offered readers = .ok offer ∧
      selected query.profiles offer = .ok profiles ∧ profiles.Nodup ∧
      ChainFor query topology readers profiles plan items hops walk := by
  obtain ⟨offer, profiles, first, others, hops, walk, given, chosen, realised, spells, extended⟩ :=
    compile_ok compiled
  have formed := extended.built.wellFormed
  have nodes : plan.nodes = first :: others ++ hops := extended.allNodes
  have visits : (first :: walk).Perm plan.nodes := by
    rw [nodes]
    exact spells.perm
  have distinct : ((first :: walk).map (·.id)).Nodup :=
    (visits.map _).nodup_iff.mpr formed.nodup_ids
  refine ⟨offer, profiles, first :: others, hops, first :: walk, given, chosen,
    nodup_selected (nodup_offered given) chosen, ?_⟩
  constructor
  case nodes => exact nodes
  case numbered => exact formed.numbered
  case realised => exact realised
  case plain => exact extended.areHops
  case alike =>
    intro node member
    rw [nodes] at member
    rcases List.mem_append.mp member with item | hop
    · obtain ⟨_, -, realises⟩ := exists_of_forall₂_of_mem realised item
      exact realises.profiles
    · exact (extended.areHops node hop).profiles
  case count => rw [extended.joined.length, visits.length_eq]
  case starts =>
    have ids := formed.numbered
    rw [nodes, List.cons_append, List.length_cons, List.range_succ_eq_map, List.map_cons] at ids
    exact congrArg some (List.cons.inj ids).1
  case chain =>
    exact extended.joined.chain distinct [] rfl fun _ member => absurd member List.not_mem_nil
  case visits => exact ⟨visits, distinct⟩
  case spells => exact spells
  case ends => exact spells.ends.2

/-! ### A chain with a type in between and a type twice -/

def threeTypes : Topology where
  types := ["a", "b", "c"].foldl
    (fun types name => types.insert ("lab." ++ name) ⟨⟨"lab", name⟩, ["id", name]⟩) .empty
  links := [("a", "b"), ("b", "c"), ("c", "c")].map fun ends =>
    ⟨⟨"lab", ends.1⟩, ⟨"lab", ends.2⟩, ⟨ends.2, "id"⟩⟩

def noRecords : Reader := ⟨"lab", ["main"], ⟨.inline "", .inline ""⟩, fun _ => .records []⟩

/-- From the first type to the last one, and on to the last one again. -/
def twice : Query where
  profiles := .all
  root := ⟨.bare "a", []⟩
  sequence := [
    (.short, ⟨.bare "c", [.show .all, .search (.equals "c" "1"), .show (.named ["id"])]⟩),
    (.full, ⟨.qualified "lab" "c", []⟩)]

/-- The type in between is visited second and numbered last. -/
theorem compile_chain_twice : ∃ plan offer profiles items hops walk,
    compile twice threeTypes [noRecords] = .ok plan ∧
    plan.edges = [("ROOT", "n-3"), ("n-3", "n-1"), ("n-1", "n-2")] ∧
    selected twice.profiles offer = .ok profiles ∧ profiles.Nodup ∧
    ChainFor twice threeTypes [noRecords] profiles plan items hops walk := by
  have evaluated : (compile twice threeTypes [noRecords]).map edges =
      .ok [("ROOT", "n-3"), ("n-3", "n-1"), ("n-1", "n-2")] := by cbv
  cases compiled : compile twice threeTypes [noRecords] with
  | error error =>
    rw [compiled] at evaluated
    cases evaluated
  | ok plan =>
    rw [compiled] at evaluated
    obtain ⟨offer, profiles, items, hops, walk, -, chosen, distinct, chain⟩ :=
      compile_chain compiled
    exact ⟨plan, offer, profiles, items, hops, walk, rfl, Except.ok.inj evaluated, chosen, distinct,
      chain⟩

end PathQuery.Plan
