/-
This file says when the nodes of a query can be connected. Linking cannot go wrong: every link that
is added leads to a node without links of its own, either a new one or the next of the query, so
it joins nodes of the plan and closes no cycle. What can be missing is a way through the topology,
and a reader for a type on it.
-/

import PathQuery.Proofs.Chain
import PathQuery.Proofs.Routes

namespace PathQuery.Plan

/-- There is a reader for the namespace of a type. -/
def HasReader (readers : List Reader) (kind : ResourceType) : Prop :=
  ∃ reader ∈ readers, reader.space = kind.space

/-- Two types can be connected: by a link of the type to itself where they are equal, and otherwise
by a route, where all types between the ends of the shortest path have readers. -/
inductive Connectable (topology : Topology) (readers : List Reader) :
    (source target : ResourceType) → Prop where
  | same {kind : ResourceType} : topology.Linked kind kind →
    Connectable topology readers kind kind
  | path {source target : ResourceType} {route path : List ResourceType} : source ≠ target →
    topology.IsRoute source target route → topology.shortestPath source target = .ok path →
    (∀ kind ∈ path.tail.dropLast, HasReader readers kind) →
    Connectable topology readers source target

/-- Why two types cannot be connected. -/
inductive Unconnected (topology : Topology) (readers : List Reader) :
    (source target : ResourceType) → Error → Prop where
  | unlinked {kind : ResourceType} : ¬ topology.Linked kind kind →
    Unconnected topology readers kind kind (.topology (.noPath kind kind))
  | unrouted {source target : ResourceType} : source ≠ target →
    (¬ ∃ route, topology.IsRoute source target route) →
    Unconnected topology readers source target (.topology (.noPath source target))
  | unread {source target kind : ResourceType} {path : List ResourceType} : source ≠ target →
    topology.shortestPath source target = .ok path → kind ∈ path.tail.dropLast →
    ¬ HasReader readers kind →
    Unconnected topology readers source target (.noReader kind.space)

variable {topology : Topology} {readers : List Reader} {profiles : List String}

/-- There is no reason against connecting types that can be connected. -/
theorem Unconnected.not_connectable {source target : ResourceType} {error : Error}
    (unconnected : Unconnected topology readers source target error) :
    ¬ Connectable topology readers source target := by
  intro connectable
  cases unconnected with
  | unlinked unlinked =>
    cases connectable with
    | same linked => exact unlinked linked
    | path different => exact different rfl
  | unrouted different unrouted =>
    cases connectable with
    | same => exact different rfl
    | path _ route => exact unrouted ⟨_, route⟩
  | unread different found between unread =>
    cases connectable with
    | same => exact different rfl
    | path _ _ foundToo all =>
      cases found.symm.trans foundToo
      exact unread (all _ between)

/-! ### Readers -/

/-- A type has a reader, or that there is none is the answer. -/
theorem readerFor_outcome (readers : List Reader) (kind : ResourceType) :
    (HasReader readers kind ∧ ∃ reader, readerFor readers kind = .ok reader) ∨
      (¬ HasReader readers kind ∧ readerFor readers kind = .error (.noReader kind.space)) := by
  have found_iff : (Reader.ofSpace? readers kind.space).isSome = true ↔ HasReader readers kind := by
    rw [Reader.ofSpace?, List.find?_isSome]
    simp only [List.mem_reverse, beq_iff_eq, HasReader]
  rw [← found_iff, readerFor]
  cases Reader.ofSpace? readers kind.space with
  | none => exact .inr ⟨Bool.false_ne_true, rfl⟩
  | some reader => exact .inl ⟨rfl, reader, rfl⟩

/-! ### Links that are accepted -/

/-- A node without links leads to itself only. -/
theorem reaches_of_idle {plan : Plan} {id other : String} (idle : plan.linksFrom id = [])
    (path : Relation.ReflTransGen (Graph.Leads plan.edges) id other) : other = id := by
  induction path with
  | refl => rfl
  | tail _ leads inductionHypothesis =>
    subst inductionHypothesis
    obtain ⟨link, member, same⟩ := List.mem_map.mp leads
    cases same
    exact absurd (mem_linksFrom.mpr ⟨member, rfl⟩) (by rw [idle]; exact List.not_mem_nil)

/-- A link to a node without links is accepted. -/
theorem addLink_of_idle {plan : Plan} {source target : String} (mapping : Mapping)
    (known : plan.contains source = true) (knownToo : plan.contains target = true)
    (different : source ≠ target) (idle : plan.linksFrom target = []) :
    plan.addLink source target mapping =
      .ok { plan with links := plan.links ++ [⟨source, target, mapping⟩] } :=
  addLink_ok source target mapping known knownToo fun path => different (reaches_of_idle idle path)

/-- A node that is not in a well formed plan has no links there. -/
theorem WellFormed.linksFrom_unknown {plan : Plan} (formed : WellFormed plan) {id : String}
    (unknown : plan.contains id = false) : plan.linksFrom id = [] := by
  refine filter_source_eq_nil fun link member same => ?_
  rw [← same, (formed.joined link member).1] at unknown
  cases unknown

/-- The next node that is added is new. -/
theorem WellFormed.contains_idAt {plan : Plan} (formed : WellFormed plan) :
    plan.contains (idAt plan.nodes.length) = false := by
  rw [← Bool.not_eq_true, contains_iff]
  rintro ⟨node, member, same⟩
  have given := List.mem_map_of_mem (f := (·.id)) member
  rw [formed.numbered, same, List.mem_map_of_injective idAt_injective, List.mem_range] at given
  exact Nat.lt_irrefl _ given

/-- A node that is added leaves the others in the plan. -/
theorem contains_append {plan : Plan} {id : String} (node : Node) (links : List Link)
    (known : plan.contains id = true) : Plan.contains ⟨plan.nodes ++ [node], links⟩ id = true := by
  obtain ⟨other, given, same⟩ := contains_iff.mp known
  exact contains_iff.mpr ⟨other, List.mem_append_left _ given, same⟩

/-- A node is added to a plan that has one, under the next number. -/
theorem addNode_of_ne_nil {plan : Plan} (set : plan.nodes ≠ []) (spec : Spec) :
    plan.addNode spec = .ok
      ({ plan with nodes := plan.nodes ++ [⟨idAt plan.nodes.length, spec⟩] },
        idAt plan.nodes.length) := by
  rw [addNode, if_neg fun unset => set (List.isEmpty_iff.mp unset)]
  cases held : plan.nodes with
  | nil => exact absurd held set
  | cons first rest => rfl

/-! ### Ways that can be taken -/

theorem mappingFor_of_linked {source target : ResourceType}
    (linked : topology.Linked source target) :
    ∃ mapping, mappingFor topology source target = .ok mapping := by
  obtain ⟨mapping, mapped⟩ := linked
  exact ⟨mapping, by rw [mappingFor, mapped]⟩

/-- The first type of several gets a new node, to which the current one is linked, and from there
the others are followed. -/
theorem connectAlong_step (profiles : List String) (goal : Node) {current : Node} {plan : Plan}
    {kind second : ResourceType} {reader : Reader} {mapping : Mapping}
    (rest : List ResourceType) (built : plan.Built)
    (known : plan.contains current.id = true) (found : readerFor readers kind = .ok reader)
    (mapped : mappingFor topology current.spec.kind kind = .ok mapping) :
    ∃ (hop : Node) (linked : Plan), linked.Built ∧ hop.spec.kind = kind ∧
      linked.contains hop.id = true ∧
      (∀ id, plan.contains id = true → linked.contains id = true ∧ hop.id ≠ id ∧
        (current.id ≠ id → linked.linksFrom id = plan.linksFrom id)) ∧
      connectAlong topology readers profiles goal.place current.place (kind :: second :: rest)
          plan =
        connectAlong topology readers profiles goal.place hop.place (second :: rest) linked := by
  let hop : Node := ⟨idAt plan.nodes.length, ⟨kind, profiles, [], [], reader⟩⟩
  let grown : Plan := { plan with nodes := plan.nodes ++ [hop] }
  have set : plan.nodes ≠ [] := by
    obtain ⟨node, member, -⟩ := contains_iff.mp known
    exact List.ne_nil_of_mem member
  have added : plan.addNode hop.spec = .ok (grown, hop.id) := addNode_of_ne_nil set _
  have new : plan.contains hop.id = false := built.wellFormed.contains_idAt
  have apart : ∀ id, plan.contains id = true → hop.id ≠ id := by
    rintro id held rfl
    rw [new] at held
    cases held
  have hop_known : grown.contains hop.id = true :=
    contains_iff.mpr ⟨hop, List.mem_append_right _ (List.mem_singleton_self _), rfl⟩
  have linked : grown.addLink current.id hop.id mapping =
      .ok { grown with links := plan.links ++ [⟨current.id, hop.id, mapping⟩] } :=
    addLink_of_idle mapping (contains_append hop plan.links known) hop_known
      (apart _ known).symm (built.wellFormed.linksFrom_unknown new)
  refine ⟨hop, _, .addLink (.addNode built added) linked, rfl, hop_known, fun id held => ?_, ?_⟩
  · exact ⟨contains_append hop _ held, apart id held, fun different =>
      (linksFrom_append grown _ id).trans (if_neg different.symm)⟩
  · have asked : hopSpec readers profiles kind = .ok hop.spec := by
      rw [hopSpec, found]
      rfl
    rw [connectAlong, asked]
    · change (plan.addNode hop.spec >>= _) = _
      rw [added]
      change (mappingFor topology current.spec.kind kind >>= _) = _
      rw [mapped]
      change (grown.addLink current.id hop.id mapping >>= _) = _
      rw [linked]
      rfl
    · intro none
      cases none

/-- From a node to another one that has no links, types along declared links can be followed, where
all of them but the last have readers. -/
theorem connectAlong_outcome (readers : List Reader) (profiles : List String) {goal : Node}
    {path : List ResourceType} :
    ∀ {current : Node} {plan : Plan}, plan.Built → plan.contains current.id = true →
    plan.contains goal.id = true → current.id ≠ goal.id → plan.linksFrom goal.id = [] →
    (current.spec.kind :: path).IsChain topology.Linked →
    ((∀ kind ∈ path.dropLast, HasReader readers kind) ∧ ∃ next,
        connectAlong topology readers profiles goal.place current.place path plan = .ok next) ∨
      ∃ kind ∈ path.dropLast, ¬ HasReader readers kind ∧
        connectAlong topology readers profiles goal.place current.place path plan =
          .error (.noReader kind.space) := by
  induction path with
  | nil => exact fun _ _ _ _ _ _ => .inl ⟨List.forall_mem_nil _, _, rfl⟩
  | cons kind rest inductionHypothesis =>
    intro current plan built known knownToo different idle follows
    obtain ⟨linked, follows⟩ := List.isChain_cons_cons.mp follows
    obtain ⟨mapping, mapped⟩ := mappingFor_of_linked linked
    cases rest with
    | nil =>
      have step : connectAlong topology readers profiles goal.place current.place [kind] plan =
          plan.addLink current.id goal.id mapping := by
        rw [connectAlong, show mappingFor topology current.place.kind kind = _ from mapped]
        rfl
      exact .inl ⟨List.forall_mem_nil _, _,
        step.trans (addLink_of_idle mapping known knownToo different idle)⟩
    | cons second rest =>
      rw [List.dropLast_cons_cons]
      rcases readerFor_outcome readers kind with ⟨has, reader, found⟩ | ⟨unread, refused⟩
      · obtain ⟨hop, linked, builtToo, rfl, hop_known, kept, step⟩ :=
          connectAlong_step profiles goal rest built known found mapped
        obtain ⟨goal_known, apart, links⟩ := kept goal.id knownToo
        rw [step]
        rcases inductionHypothesis builtToo hop_known goal_known apart
            ((links different).trans idle) follows with ⟨all, done⟩ | ⟨missing, among, refused⟩
        · exact .inl ⟨List.forall_mem_cons.mpr ⟨has, all⟩, done⟩
        · exact .inr ⟨missing, List.mem_cons_of_mem _ among, refused⟩
      · refine .inr ⟨kind, List.mem_cons_self, unread, ?_⟩
        rw [connectAlong, hopSpec, refused]
        · rfl
        · intro none
          cases none

/-- Nodes of a plan that wait to be connected with the next one. -/
structure Ready (topology : Topology) (plan : Plan) (nodes : List Node) : Prop where
  built : plan.Built
  known : ∀ node ∈ nodes, plan.contains node.id = true
  registered : ∀ node ∈ nodes, topology.contains node.spec.kind = true
  distinct : (nodes.map (·.id)).Nodup
  idle : ∀ node ∈ nodes.tail, plan.linksFrom node.id = []

namespace Ready

variable {plan next : Plan} {source target : Node} {rest : List Node}

/-- Nodes that were not connected still wait when the first two are. -/
theorem step (ready : Ready topology plan (source :: target :: rest))
    (connected : connect topology readers profiles source.place target.place plan = .ok next) :
    Ready topology next (target :: rest) := by
  obtain ⟨between, links, -, extended⟩ := connect_ok ready.built connected
  obtain ⟨apart, distinct⟩ := List.pairwise_cons.mp ready.distinct
  have ids := extended.built.wellFormed.nodup_ids
  rw [extended.allNodes, List.map_append, List.nodup_append] at ids
  have held : ∀ node ∈ target :: rest, ∃ other ∈ plan.nodes, other.id = node.id :=
    fun node member => contains_iff.mp (ready.known node (List.mem_cons_of_mem _ member))
  refine ⟨extended.built, fun node member => ?_,
    fun node member => ready.registered node (List.mem_cons_of_mem _ member), distinct,
    fun node member => ?_⟩
  · obtain ⟨other, given, same⟩ := held node member
    refine contains_iff.mpr ⟨other, ?_, same⟩
    rw [extended.allNodes]
    exact List.mem_append_left _ given
  have waits : plan.linksFrom node.id = [] := ready.idle node (List.mem_cons_of_mem _ member)
  -- The new links start from the first node and from new ones.
  have elsewhere : ∀ link ∈ links, link.source ≠ node.id := by
    intro link given same
    have among := extended.joined.source_mem link given
    rw [same, List.map_cons, List.map_append, List.mem_cons, List.mem_append] at among
    rcases among with first | new | last
    · exact apart _ (List.mem_map_of_mem (List.mem_cons_of_mem _ member)) first.symm
    · obtain ⟨other, old, otherSame⟩ := held node (List.mem_cons_of_mem _ member)
      exact ids.2.2 _ (List.mem_map_of_mem old) _ new otherSame
    · rw [List.map_singleton, List.mem_singleton] at last
      exact (List.pairwise_cons.mp distinct).1 _ (List.mem_map_of_mem member) last.symm
  rw [linksFrom, extended.allLinks, List.filter_append, filter_source_eq_nil elsewhere,
    List.append_nil]
  exact waits

end Ready

/-- Two nodes that wait can be connected exactly where their types can be. -/
theorem connect_outcome (readers : List Reader) (profiles : List String) {plan : Plan}
    {source target : Node} {rest : List Node}
    (ready : Ready topology plan (source :: target :: rest)) :
    (Connectable topology readers source.spec.kind target.spec.kind ∧ ∃ next,
        connect topology readers profiles source.place target.place plan = .ok next) ∨
      ∃ error, Unconnected topology readers source.spec.kind target.spec.kind error ∧
        connect topology readers profiles source.place target.place plan = .error error := by
  have known := ready.known source List.mem_cons_self
  have knownToo := ready.known target (List.mem_cons_of_mem _ List.mem_cons_self)
  have different : source.id ≠ target.id :=
    (List.pairwise_cons.mp ready.distinct).1 _ List.mem_cons_self
  have idle := ready.idle target List.mem_cons_self
  by_cases same : source.spec.kind = target.spec.kind
  · rw [connect, if_pos (show source.place.kind = target.place.kind from same)]
    simp only [Node.place]
    rw [← same]
    cases found : topology.mapping? source.spec.kind source.spec.kind with
    | some mapping =>
      have linked : topology.Linked source.spec.kind source.spec.kind :=
        ⟨mapping, by rw [Topology.mapping, found]⟩
      exact .inl ⟨.same linked, _, addLink_of_idle mapping known knownToo different idle⟩
    | none =>
      refine .inr ⟨_, .unlinked ?_, rfl⟩
      rintro ⟨mapping, mapped⟩
      rw [Topology.mapping, found] at mapped
      cases mapped
  · have registered : topology.unknown? source.spec.kind target.spec.kind = none :=
      Topology.unknown?_eq_none_iff.mpr ⟨ready.registered source List.mem_cons_self,
        ready.registered target (List.mem_cons_of_mem _ List.mem_cons_self)⟩
    have routed := Topology.routed registered
    rw [connect, if_neg (show ¬ source.place.kind = target.place.kind from same)]
    cases found : topology.shortestPath source.place.kind target.place.kind with
    | error error =>
      obtain ⟨-, rfl⟩ := (Topology.shortestPath_eq_error_iff registered).mp found
      exact .inr ⟨_, .unrouted same (routed.noPath_iff.mp found), rfl⟩
    | ok path =>
      have isRoute := (routed.shortest path found).1
      obtain ⟨way, rfl, -⟩ := shortestPath_steps same found
      rcases connectAlong_outcome readers profiles ready.built known
          knownToo different idle isRoute.follows with ⟨all, done⟩ | ⟨kind, among, unread, refused⟩
      · exact .inl ⟨.path same isRoute found all, done⟩
      · exact .inr ⟨_, .unread same found among unread, refused⟩

/-- Nodes that wait can all be connected exactly where the types of each and the next can be. -/
theorem connectAll_outcome (readers : List Reader) (profiles : List String)
    {others : List Node} : ∀ {first : Node} {plan : Plan},
    Ready topology plan (first :: others) →
    ((first :: others).IsChain (fun source target =>
        Connectable topology readers source.spec.kind target.spec.kind) ∧ ∃ next,
        connectAll topology readers profiles ((first :: others).map Node.place) plan = .ok next) ∨
      ∃ source target error, [source, target] <:+: first :: others ∧
        Unconnected topology readers source.spec.kind target.spec.kind error ∧
        connectAll topology readers profiles ((first :: others).map Node.place) plan =
          .error error := by
  induction others with
  | nil => exact fun _ => .inl ⟨.singleton _, _, rfl⟩
  | cons second rest inductionHypothesis =>
    intro first plan ready
    rcases connect_outcome readers profiles ready with
      ⟨connectable, next, connected⟩ | ⟨error, unconnected, refused⟩
    · have step : connectAll topology readers profiles ((first :: second :: rest).map Node.place)
          plan = connectAll topology readers profiles ((second :: rest).map Node.place) next := by
        change (connect topology readers profiles first.place second.place plan >>= _) = _
        rw [connected]
        rfl
      rw [step]
      rcases inductionHypothesis (ready.step connected) with
        ⟨chain, done⟩ | ⟨source, target, error, pair, unconnected, refused⟩
      · exact .inl ⟨.cons_cons connectable chain, done⟩
      · exact .inr ⟨source, target, error, List.infix_cons pair, unconnected, refused⟩
    · refine .inr ⟨first, second, error, ⟨[], rest, rfl⟩, unconnected, ?_⟩
      exact bind_eq_error.mpr (.inl refused)

end PathQuery.Plan
