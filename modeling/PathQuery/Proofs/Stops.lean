/-
This file says what becomes of a query that names the types on the way between its items, in full
and without modifiers. Its items ask for the nodes along the walk of the shorter query. Over a
topology that is built from documents every type on the way can be named, and neighbours on a
shortest path are each other's shortest path: no type is left between the items, so the query has
all it needs, and there is nothing to name a second time.
-/

import PathQuery.Proofs.Building
import PathQuery.Proofs.Walks

namespace PathQuery

/-! ### Naming the types on the way -/

/-- The types between two others on the shortest path, if there is one. -/
def Topology.between (topology : Topology) (source target : ResourceType) : List ResourceType :=
  match topology.shortestPath source target with
  | .error _ => []
  | .ok path => path.tail.dropLast

/-- An item that names a type in full and nothing else. -/
def QueryItem.stop (kind : ResourceType) : QueryItem :=
  ⟨.qualified kind.space kind.name, []⟩

namespace Query

/-- Linked items with all types on the way: from a type to the first of them, and from each to the
next. -/
def withStops (mark : LinkMark) (topology : Topology) : (source : ResourceType) →
    List (LinkMark × QueryItem) → Except Plan.Error (List (LinkMark × QueryItem))
  | _, [] => .ok []
  | source, linked :: rest => do
    let target ← linked.2.mention.resolve topology
    let further ← withStops mark topology target rest
    .ok ((topology.between source target).map (fun kind => (mark, QueryItem.stop kind)) ++
      linked :: further)

/-- A query that names all types on the way. -/
def expanded (mark : LinkMark) (topology : Topology) (query : Query) :
    Except Plan.Error Query := do
  let source ← query.root.mention.resolve topology
  let sequence ← withStops mark topology source query.sequence
  .ok { query with sequence }

/-- Every item that is named is one of the query, or a type on the way. -/
theorem mem_withStops {mark : LinkMark} {topology : Topology}
    {sequence : List (LinkMark × QueryItem)} :
    ∀ {source : ResourceType} {all : List (LinkMark × QueryItem)},
      withStops mark topology source sequence = .ok all → ∀ linked ∈ all,
        linked ∈ sequence ∨ ∃ kind, linked.2 = QueryItem.stop kind := by
  induction sequence with
  | nil =>
    rintro source all ⟨⟩
    exact nofun
  | cons linked rest inductionHypothesis =>
    intro source all named other member
    obtain ⟨target, resolved, named⟩ := bind_eq_ok.mp named
    obtain ⟨further, continued, named⟩ := bind_eq_ok.mp named
    cases named
    rcases List.mem_append.mp member with stop | later
    · obtain ⟨kind, -, rfl⟩ := List.mem_map.mp stop
      exact .inr ⟨kind, rfl⟩
    · rcases List.mem_cons.mp later with rfl | later
      · exact .inl List.mem_cons_self
      · exact (inductionHypothesis continued other later).imp_left (List.mem_cons_of_mem _)

end Query

namespace Topology

/-! ### Types that can be named -/

/-- A type that an item can name in full. -/
def Nameable (topology : Topology) (kind : ResourceType) : Prop :=
  Plan.Denotes topology (.qualified kind.space kind.name) kind

/-- Links join types that can be named. -/
def Named (topology : Topology) : Prop :=
  ∀ link ∈ topology.links, topology.Nameable link.source ∧ topology.Nameable link.target

variable {topology : Topology}

/-- Links of a topology that is built from documents join types that can be named. -/
theorem named_of_build {items : List Schema.Items} {links : List Schema.Links}
    (built : build items links = .ok topology) : topology.Named := by
  obtain ⟨-, added⟩ := linksAdded_of_build built
  obtain ⟨held, has⟩ := added.has
  have nameable : ∀ {kind : ResourceType} {written : String}, kind.IsWritten written →
      written ∈ (items.flatMap (·.types)).map (·.written) → topology.Nameable kind :=
    fun isWritten declared => .qualified isWritten.spaced isWritten.named
      ((has.contains_iff_of_isWritten isWritten).mpr declared)
  intro link member
  obtain ⟨decl, given, linkOf⟩ := exists_of_forall₂_of_mem added.declared member
  obtain ⟨declared, declaredToo⟩ := added.sound.declared decl given
  exact ⟨nameable linkOf.source declared, nameable linkOf.target declaredToo⟩

theorem Named.nameable (named : topology.Named) {source target : ResourceType}
    (linked : topology.Linked source target) :
    topology.Nameable source ∧ topology.Nameable target := by
  obtain ⟨link, member, same⟩ := List.mem_map.mp (linked_iff.mp linked)
  cases same
  exact named link member

/-! ### Neighbours on a shortest path -/

theorem Named.known (named : topology.Named) {source target : ResourceType}
    (linked : topology.Linked source target) : topology.unknown? source target = none := by
  obtain ⟨nameable, nameableToo⟩ := named.nameable linked
  exact unknown?_eq_none_iff.mpr ⟨nameable.contains, nameableToo.contains⟩

/-- Between two types with a link no path is shorter than the link. -/
theorem Named.shortestPath (named : topology.Named) {source target : ResourceType}
    (linked : topology.Linked source target) (different : source ≠ target) :
    topology.shortestPath source target = .ok [source, target] := by
  have routed := routed (named.known linked)
  have route : IsRoute topology source target [source, target] :=
    ⟨rfl, rfl, .cons_cons linked (.singleton _)⟩
  obtain ⟨path, found⟩ := routed.found_iff.mpr ⟨_, route⟩
  obtain ⟨isRoute, -, least⟩ := routed.shortest path found
  have short : path.length ≤ 2 := least _ route
  obtain ⟨starts, ends, -⟩ := isRoute
  match path, short with
  | [], _ => cases starts
  | [only], _ =>
    cases starts
    cases ends
    exact absurd rfl different
  | [first, second], _ =>
    cases starts
    cases ends
    exact found

/-- There is nothing between two types with a link. -/
theorem Named.between_eq_nil (named : topology.Named) {source target : ResourceType}
    (linked : topology.Linked source target) : topology.between source target = [] := by
  by_cases same : source = target
  · subst same
    rw [between, (routed (named.known linked)).same rfl]
    rfl
  · rw [between, named.shortestPath linked same]
    rfl

theorem known_of_shortestPath {source target : ResourceType} {path : List ResourceType}
    (found : topology.shortestPath source target = .ok path) :
    topology.unknown? source target = none := by
  cases unknown : topology.unknown? source target with
  | none => rfl
  | some error =>
    rw [shortestPath_of_unknown unknown] at found
    cases found

/-- The types between two others are those of the leg from one to the other. -/
theorem between_of_leg {source target : ResourceType} {kinds : List ResourceType}
    (leg : Plan.Leg topology source target kinds) : topology.between source target = kinds := by
  cases leg with
  | @same kind =>
    rw [between]
    split
    · rfl
    · next path found =>
      rw [(routed (known_of_shortestPath found)).same rfl] at found
      cases found
      rfl
  | path _ found =>
    rw [between, found]
    exact List.dropLast_concat

/-- Along a chain every element but the first is related to one before it. -/
theorem exists_rel_of_isChain {α : Type} {related : α → α → Prop} {list : List α} :
    ∀ {first : α}, (first :: list).IsChain related → ∀ element ∈ list,
      ∃ before, related before element := by
  induction list with
  | nil => exact fun _ => nofun
  | cons second rest inductionHypothesis =>
    intro first chain element member
    obtain ⟨step, chain⟩ := List.isChain_cons_cons.mp chain
    rcases List.mem_cons.mp member with rfl | later
    · exact ⟨first, step⟩
    · exact inductionHypothesis chain element later

/-- Types on a leg can be named: a link leads to each of them. -/
theorem Named.nameable_of_leg (named : topology.Named) {source target : ResourceType}
    {kinds : List ResourceType} (leg : Plan.Leg topology source target kinds) :
    ∀ kind ∈ kinds, topology.Nameable kind := by
  cases leg with
  | same => exact nofun
  | path _ found =>
    intro kind member
    have follows := ((routed (known_of_shortestPath found)).shortest _ found).1.follows
    obtain ⟨before, linked⟩ :=
      exists_rel_of_isChain follows kind (List.mem_append_left _ member)
    exact (named.nameable linked).2

end Topology

namespace Plan

variable {topology : Topology} {readers : List Reader} {profiles : List String}

/-! ### The items of an expanded query -/

theorem resolve_of_denotes {mention : TypeMention} {kind : ResourceType}
    (denotes : Denotes topology mention kind) : mention.resolve topology = .ok kind := by
  rcases resolve_outcome mention topology with ⟨other, denotesToo, found⟩ | ⟨error, unresolved, -⟩
  · rw [found, denotes.unique denotesToo]
  · exact absurd denotes unresolved.not_denotes

/-- A node between two items is the one that an item without modifiers asks for. -/
theorem IsHop.realises {spec : Spec} (hop : IsHop readers profiles spec)
    (nameable : topology.Nameable spec.kind) :
    Realises topology readers profiles (.stop spec.kind) spec where
  kind := resolve_of_denotes nameable
  profiles := hop.profiles
  attrs := hop.attrs
  conditions := hop.conditions
  reader := hop.reader

/-- What an item asks for is settled. -/
theorem Realises.unique {item : QueryItem} {spec other : Spec}
    (realises : Realises topology readers profiles item spec)
    (realisesToo : Realises topology readers profiles item other) : spec = other := by
  obtain ⟨kind, profiles, attrs, conditions, reader⟩ := spec
  obtain ⟨kindToo, profilesToo, attrsToo, conditionsToo, readerToo⟩ := other
  obtain ⟨resolved, rfl, shown, searched, found⟩ := realises
  obtain ⟨resolvedToo, rfl, shownToo, searchedToo, foundToo⟩ := realisesToo
  cases resolved.symm.trans resolvedToo
  cases found.symm.trans foundToo
  cases shown.trans shownToo.symm
  cases searched.trans searchedToo.symm
  rfl

theorem specs_eq_of_realised {items : List QueryItem} {nodes : List Node}
    (realised : List.Forall₂ (fun item node => Realises topology readers profiles item node.spec)
      items nodes) : ∀ {others : List Node},
    List.Forall₂ (fun item node => Realises topology readers profiles item node.spec) items others →
    nodes.map (·.spec) = others.map (·.spec) := by
  induction realised with
  | nil =>
    rintro others ⟨⟩
    rfl
  | cons realises _ inductionHypothesis =>
    intro others realisedToo
    cases realisedToo with
    | cons realisesToo realisedToo =>
      rw [List.map_cons, List.map_cons, realises.unique realisesToo,
        inductionHypothesis realisedToo]

/-- With all types on the way, linked items ask for the nodes along the walk. -/
theorem withStops_of_spells (mark : LinkMark) (named : topology.Named) {others : List Node} :
    ∀ {first : Node} {hops walk : List Node} {sequence : List (LinkMark × QueryItem)},
    Spells topology (first :: others) hops (first :: walk) →
    List.Forall₂ (fun item node => Realises topology readers profiles item node.spec)
      (sequence.map (·.2)) others →
    (∀ hop ∈ hops, IsHop readers profiles hop.spec) →
    ∃ all, Query.withStops mark topology first.spec.kind sequence = .ok all ∧
      List.Forall₂ (fun item node => Realises topology readers profiles item node.spec)
        (all.map (·.2)) walk := by
  induction others with
  | nil =>
    intro first hops walk sequence spells realised plain
    cases sequence with
    | nil =>
      cases spells
      exact ⟨[], rfl, .nil⟩
    | cons => cases realised
  | cons second others inductionHypothesis =>
    intro first hops walk sequence spells realised plain
    cases sequence with
    | nil => cases realised
    | cons linked sequence =>
      obtain ⟨realises, realised⟩ := List.forall₂_cons.mp realised
      obtain _ | @⟨_, _, _, hops, between, walk, leg, spells⟩ := spells
      obtain ⟨further, continued, found⟩ := inductionHypothesis spells realised fun hop member =>
        plain hop (List.mem_append_right _ member)
      refine ⟨_, bind_eq_ok.mpr ⟨_, realises.kind, bind_eq_ok.mpr ⟨further, continued, rfl⟩⟩, ?_⟩
      rw [Topology.between_of_leg leg, List.map_append, List.map_map, List.map_map]
      refine List.rel_append (List.forall₂_map_left_iff.mpr (List.forall₂_same.mpr ?_))
        (.cons realises found)
      exact fun node member => (plain node (List.mem_append_left _ member)).realises
        (named.nameable_of_leg leg _ (List.mem_map_of_mem member))

/-- Along a walk there is a link from every type to the next. -/
theorem Joined.follows {walk : List Node} {links : List Link}
    (joined : Joined topology walk links) :
    (walk.map (·.spec.kind)).IsChain topology.Linked := by
  induction joined with
  | last => exact .singleton _
  | step mapped _ inductionHypothesis => exact .cons_cons ⟨_, mapped⟩ inductionHypothesis

/-- The mappings along a walk are settled by its types. -/
theorem Joined.mappings {walk : List Node} {links : List Link}
    (joined : Joined topology walk links) : ∀ {other : List Node} {ways : List Link},
    Joined topology other ways → walk.map (·.spec.kind) = other.map (·.spec.kind) →
    links.map (·.mapping) = ways.map (·.mapping) := by
  induction joined with
  | last =>
    intro other ways joinedToo alike
    cases joinedToo with
    | last => rfl
    | step => cases (List.cons.inj alike).2
  | @step first second rest links mapping mapped _ inductionHypothesis =>
    intro other ways joinedToo alike
    cases joinedToo with
    | last => cases (List.cons.inj alike).2
    | @step one another further ways mappingToo mappedToo joinedToo =>
      have kind : first.spec.kind = one.spec.kind := (List.cons.inj alike).1
      have later := (List.cons.inj alike).2
      have next : second.spec.kind = another.spec.kind := (List.cons.inj later).1
      rw [kind, next] at mapped
      cases mapped.symm.trans mappedToo
      rw [List.map_cons, List.map_cons, inductionHypothesis joinedToo later]

/-- A walk that meets items with links between them meets nothing else. -/
theorem Spells.eq_of_linked (named : topology.Named) {items hops walk : List Node}
    (spells : Spells topology items hops walk)
    (follows : (items.map (·.spec.kind)).IsChain topology.Linked) : hops = [] ∧ walk = items := by
  induction spells with
  | last => exact ⟨rfl, rfl⟩
  | @leg first second items hops between walk leg _ inductionHypothesis =>
    obtain ⟨linked, follows⟩ := List.isChain_cons_cons.mp follows
    obtain ⟨rfl, same⟩ := inductionHypothesis follows
    have nothing : between = [] :=
      List.map_eq_nil_iff.mp
        ((Topology.between_of_leg leg).symm.trans (named.between_eq_nil linked))
    subst nothing
    exact ⟨rfl, congrArg _ same⟩

/-- There is nothing to name between items with links between them. -/
theorem withStops_of_linked (mark : LinkMark) (named : topology.Named) {others : List Node} :
    ∀ {first : Node} {sequence : List (LinkMark × QueryItem)},
    List.Forall₂ (fun item node => Realises topology readers profiles item node.spec)
      (sequence.map (·.2)) others →
    ((first :: others).map (·.spec.kind)).IsChain topology.Linked →
    Query.withStops mark topology first.spec.kind sequence = .ok sequence := by
  induction others with
  | nil =>
    intro first sequence realised _
    cases sequence with
    | nil => rfl
    | cons => cases realised
  | cons second others inductionHypothesis =>
    intro first sequence realised follows
    cases sequence with
    | nil => cases realised
    | cons linked sequence =>
      obtain ⟨realises, realised⟩ := List.forall₂_cons.mp realised
      obtain ⟨step, follows⟩ := List.isChain_cons_cons.mp follows
      refine bind_eq_ok.mpr ⟨_, realises.kind, bind_eq_ok.mpr
        ⟨sequence, inductionHypothesis realised follows, ?_⟩⟩
      rw [named.between_eq_nil step]
      rfl

/-- Types with a link between them can be connected. -/
theorem connectable_of_linked (named : topology.Named) {source target : ResourceType}
    (linked : topology.Linked source target) : Connectable topology readers source target := by
  by_cases same : source = target
  · subst same
    exact .same linked
  · exact .path same ⟨rfl, rfl, .cons_cons linked (.singleton _)⟩
      (named.shortestPath linked same) nofun

theorem hasReader_of_ofSpace? {kind : ResourceType} {reader : Reader}
    (found : Reader.ofSpace? readers kind.space = some reader) : HasReader readers kind := by
  rcases readerFor_outcome readers kind with ⟨has, -⟩ | ⟨-, refused⟩
  · exact has
  · rw [readerFor, found] at refused
    cases refused

/-- With all types on the way, a query that is planned has all it needs. -/
theorem plannable_expanded (named : topology.Named) {query expanded : Query} {mark : LinkMark}
    (plannable : Plannable query topology readers)
    (done : query.expanded mark topology = .ok expanded) {nodes : List Node}
    (realised : List.Forall₂ (fun item node => Realises topology readers profiles item node.spec)
      expanded.items nodes) (follows : (nodes.map (·.spec.kind)).IsChain topology.Linked) :
    Plannable expanded topology readers := by
  obtain ⟨source, -, done⟩ := bind_eq_ok.mp done
  obtain ⟨sequence, named', done⟩ := bind_eq_ok.mp done
  cases done
  have denoted : ∀ {item : QueryItem} {spec : Spec} {kind : ResourceType},
      Realises topology readers profiles item spec → Denotes topology item.mention kind →
      kind = spec.kind :=
    fun realises denotes => denotes.unique (denotes_of_resolve realises.kind)
  constructor
  case distinct => exact plannable.distinct
  case chosen => exact plannable.chosen
  case denotes =>
    intro item member
    obtain ⟨node, -, realises⟩ := exists_of_forall₂_of_mem realised.flip member
    exact ⟨_, denotes_of_resolve realises.kind⟩
  case supported =>
    intro item member kind denotes modifier among
    rcases List.mem_cons.mp member with rfl | member
    · exact plannable.supported _ List.mem_cons_self kind denotes modifier among
    · obtain ⟨linked, given, rfl⟩ := List.mem_map.mp member
      rcases Query.mem_withStops named' linked given with old | ⟨_, stop⟩
      · exact plannable.supported _ (List.mem_cons_of_mem _ (List.mem_map_of_mem old)) kind denotes
          modifier among
      · rw [stop] at among
        cases among
  case read =>
    intro item member kind denotes
    obtain ⟨node, -, realises⟩ := exists_of_forall₂_of_mem realised.flip member
    rw [denoted realises denotes]
    exact hasReader_of_ofSpace? realises.reader
  case connected =>
    intro first second pair source target denotes denotesToo
    obtain ⟨one, other, within, realises, realisesToo⟩ := exists_pair_of_forall₂ realised pair
    rw [denoted realises denotes, denoted realisesToo denotesToo]
    have linked := follows.infix (within.map (·.spec.kind))
    exact connectable_of_linked named (List.isChain_cons_cons.mp linked).1

end Plan

end PathQuery
