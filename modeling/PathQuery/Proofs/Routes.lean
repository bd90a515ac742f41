/-
This file says what routing through a topology answers. It refuses types that are not registered,
and between registered types it finds a route along declared links whenever there is one: a
shortest one, without repetition. The same route is read back from the parents that a search notes.
-/

import PathQuery.Proofs.Layers
import PathQuery.Proofs.Parents
import PathQuery.Topology.Basic

namespace PathQuery.Topology

variable {topology : Topology} {source target : ResourceType}

/-! ### Routes -/

/-- A link is declared from one type to another. -/
def Linked (topology : Topology) (source target : ResourceType) : Prop :=
  ∃ mapping, topology.mapping source target = .ok mapping

theorem linked_iff_isSome :
    Linked topology source target ↔ (topology.mapping? source target).isSome = true := by
  rw [Linked, mapping]
  cases topology.mapping? source target with
  | none => exact ⟨fun found => (by cases found.choose_spec), fun found => (by cases found)⟩
  | some mapping => exact ⟨fun _ => rfl, fun _ => ⟨mapping, rfl⟩⟩

theorem linked_iff : Linked topology source target ↔ Graph.Leads topology.edges source target := by
  have leads : Graph.Leads topology.edges source target ↔
      ∃ link ∈ topology.links, link.source = source ∧ link.target = target := by
    simp only [Graph.Leads, edges, List.mem_map, Prod.mk.injEq]
  rw [linked_iff_isSome, leads, mapping?, Option.isSome_map, List.find?_isSome]
  simp only [linksFrom, List.mem_filter, beq_iff_eq, and_assoc]

/-- The mapping between two types is that of a link. -/
theorem mem_links_of_mapping {mapping : Mapping}
    (mapped : topology.mapping source target = .ok mapping) :
    ⟨source, target, mapping⟩ ∈ topology.links := by
  rw [Topology.mapping, mapping?] at mapped
  cases found : (topology.linksFrom source).find? (·.target == target) with
  | none =>
    rw [found] at mapped
    cases mapped
  | some link =>
    rw [found] at mapped
    cases mapped
    obtain ⟨member, starts⟩ := List.mem_filter.mp (List.mem_of_find?_eq_some found)
    have ends := List.find?_some found
    cases beq_iff_eq.mp starts
    cases beq_iff_eq.mp ends
    exact member

/-- A route: types in order, from the source to the target along declared links. -/
structure IsRoute (topology : Topology) (source target : ResourceType)
    (route : List ResourceType) : Prop where
  starts : route.head? = some source
  ends : route.getLast? = some target
  follows : route.IsChain (Linked topology)

theorem isRoute_iff {route : List ResourceType} :
    IsRoute topology source target route ↔ Graph.IsWalk topology.edges source target route := by
  have same : Linked topology = Graph.Leads topology.edges :=
    funext fun _ => funext fun _ => propext linked_iff
  constructor
  · rintro ⟨starts, ends, follows⟩
    exact ⟨starts, ends, same ▸ follows⟩
  · rintro ⟨starts, ends, follows⟩
    exact ⟨starts, ends, same ▸ follows⟩

/-! ### What routing answers -/

/-- A refusal names the first of two types that is not registered. -/
theorem unknown?_eq_some_iff {error : Error} : topology.unknown? source target = some error ↔
    topology.contains source = false ∧ error = .unknownType source ∨
      topology.contains source = true ∧ topology.contains target = false ∧
        error = .unknownType target := by
  unfold unknown?
  cases topology.contains source <;> cases topology.contains target <;>
    simp [eq_comm]

theorem unknown?_eq_none_iff : topology.unknown? source target = none ↔
    topology.contains source = true ∧ topology.contains target = true := by
  unfold unknown?
  cases topology.contains source <;> cases topology.contains target <;> simp

theorem shortestPath_of_unknown {error : Error}
    (unknown : topology.unknown? source target = some error) :
    topology.shortestPath source target = .error error := by
  simp only [shortestPath, unknown]

/-- Between registered types routing answers with a walk where the search finds one, and otherwise
that there is no path. -/
theorem shortestPath_of_known (known : topology.unknown? source target = none) :
    topology.shortestPath source target =
      match Graph.shortestWalk? topology.edges source target with
      | some path => .ok path
      | none => .error (.noPath source target) := by
  unfold shortestPath
  split
  · rename_i error unknown
    rw [known] at unknown
    cases unknown
  · rfl

theorem shortestPath_eq_ok_iff (known : topology.unknown? source target = none)
    {path : List ResourceType} : topology.shortestPath source target = .ok path ↔
      Graph.shortestWalk? topology.edges source target = some path := by
  rw [shortestPath_of_known known]
  cases Graph.shortestWalk? topology.edges source target with
  | none => exact ⟨fun same => (by cases same), fun same => (by cases same)⟩
  | some walk => rw [Except.ok.injEq, Option.some.injEq]

theorem shortestPath_eq_error_iff (known : topology.unknown? source target = none)
    {error : Error} : topology.shortestPath source target = .error error ↔
      Graph.shortestWalk? topology.edges source target = none ∧ .noPath source target = error := by
  rw [shortestPath_of_known known]
  cases Graph.shortestWalk? topology.edges source target with
  | none => rw [Except.error.injEq]; exact (and_iff_right rfl).symm
  | some walk => exact ⟨fun same => (by cases same), fun same => (by cases same.1)⟩

/-- A type that is not registered is the only reason to answer with an unknown type. -/
theorem shortestPath_unknownType_iff {kind : ResourceType} :
    topology.shortestPath source target = .error (.unknownType kind) ↔
      topology.contains source = false ∧ kind = source ∨
        topology.contains source = true ∧ topology.contains target = false ∧ kind = target := by
  have named : topology.unknown? source target = some (.unknownType kind) ↔ _ :=
    unknown?_eq_some_iff
  simp only [Error.unknownType.injEq] at named
  rw [← named]
  cases known : topology.unknown? source target with
  | some error => rw [shortestPath_of_unknown known, Except.error.injEq, Option.some.injEq]
  | none =>
    rw [shortestPath_eq_error_iff known]
    exact ⟨fun found => (by cases found.2), fun found => (by cases found)⟩

/-- How routing answers between two types. -/
structure Routed (topology : Topology) (source target : ResourceType) : Prop where
  /-- From a type to itself no link is taken. -/
  same : source = target → topology.shortestPath source target = .ok [source]
  /-- A path is answered exactly where there is a route. -/
  found_iff : (∃ path, topology.shortestPath source target = .ok path) ↔
    ∃ route, IsRoute topology source target route
  /-- That there is no path is answered exactly where there is no route. -/
  noPath_iff : topology.shortestPath source target = .error (.noPath source target) ↔
    ¬ ∃ route, IsRoute topology source target route
  /-- A path that is answered is a route without repetition, and no route is shorter. -/
  shortest : ∀ path, topology.shortestPath source target = .ok path →
    IsRoute topology source target path ∧ path.Nodup ∧
      ∀ route, IsRoute topology source target route → path.length ≤ route.length
  /-- Noting parents from the source, which is its own parent, ends. Where the target is met the
  parents are read back to the source without a miss, which gives the path, and where it is not
  there is no path. -/
  readBack : source ≠ target →
    (Graph.explore topology.edges target [(source, source)] [source] = none ∧
        topology.shortestPath source target = .error (.noPath source target)) ∨
      ∃ parents route,
        Graph.explore topology.edges target [(source, source)] [source] = some parents ∧
        Graph.Traces parents source target route ∧
        topology.shortestPath source target = .ok route.reverse

theorem routed (known : topology.unknown? source target = none) :
    Routed topology source target := by
  have routes : (∃ path, Graph.shortestWalk? topology.edges source target = some path) ↔
      ∃ route, IsRoute topology source target route := by
    rw [Graph.shortestWalk?_isSome_iff]
    exact exists_congr fun _ => isRoute_iff.symm
  constructor
  case same =>
    rintro rfl
    rw [shortestPath_eq_ok_iff known, Graph.shortestWalk?, if_pos rfl]
  case found_iff =>
    rw [← routes]
    exact exists_congr fun _ => shortestPath_eq_ok_iff known
  case noPath_iff =>
    rw [shortestPath_eq_error_iff known, and_iff_left rfl, ← routes, ← Option.isSome_iff_exists,
      Option.not_isSome_iff_eq_none]
  case shortest =>
    intro path answered
    have found := (shortestPath_eq_ok_iff known).mp answered
    refine ⟨isRoute_iff.mpr (Graph.shortestWalk?_isWalk found), Graph.shortestWalk?_nodup found, ?_⟩
    exact fun route other => Graph.shortestWalk?_minimal found (isRoute_iff.mp other)
  case readBack =>
    intro different
    rcases Graph.explore_iff topology.edges different with
      ⟨unfound, unmet⟩ | ⟨route, parents, found, met, traces⟩
    · exact .inl ⟨unmet, (shortestPath_eq_error_iff known).mpr ⟨unfound, rfl⟩⟩
    · exact .inr ⟨parents, route, met, traces, (shortestPath_eq_ok_iff known).mpr found⟩

/-- Routing refuses exactly the types that are not registered, and between registered types it is
exact. Nothing is asked of the topology: cycles and links of a type to itself are allowed. -/
theorem shortestPath_exact (topology : Topology) (source target : ResourceType) :
    (∀ kind, topology.shortestPath source target = .error (.unknownType kind) ↔
      topology.contains source = false ∧ kind = source ∨
        topology.contains source = true ∧ topology.contains target = false ∧ kind = target) ∧
    (topology.contains source = true ∧ topology.contains target = true →
      Routed topology source target) :=
  ⟨fun _ => shortestPath_unknownType_iff, fun known => routed (unknown?_eq_none_iff.mpr known)⟩

/-- The type of a name in one namespace. -/
def labType (name : String) : ResourceType := ⟨"lab", name⟩

/-- Four types in a ring, the first one also linked to itself. -/
def ring : Except Error Topology := do
  let types ← ["a", "b", "c", "d"].foldlM
    (fun topology name => topology.addType (labType name) ["id"]) empty
  [("a", "a"), ("a", "b"), ("b", "c"), ("c", "d"), ("d", "a")].foldlM
    (fun topology ends => topology.addLink (labType ends.1) (labType ends.2) ⟨"id", "id"⟩) types

def ringEdges : Graph.Edges ResourceType :=
  [("a", "a"), ("a", "b"), ("b", "c"), ("c", "d"), ("d", "a")].map fun ends =>
    (labType ends.1, labType ends.2)

theorem ring_edges : ∃ topology, ring = .ok topology ∧ topology.edges = ringEdges ∧
    topology.contains (labType "a") = true ∧ topology.contains (labType "c") = true :=
  ⟨_, rfl, rfl, rfl, rfl⟩

/-- The first type leads to itself and the second one, and the second one leads half way round. -/
theorem shortestWalk?_ringEdges : Graph.shortestWalk? ringEdges (labType "a") (labType "c") =
    some [labType "a", labType "b", labType "c"] := by
  have hit : labType "c" ∈ Graph.fresh ringEdges [labType "b", labType "a"] (labType "b") := by
    decide
  rw [Graph.shortestWalk?, if_neg (by decide), Graph.search_of_miss [] [] (by decide) (by decide)]
  exact congrArg (Option.map List.reverse) (Graph.search_of_hit [labType "a"] [] hit)

/-- Half way round the ring no route is shorter than the one that is answered. -/
theorem shortestPath_exact_ring : ∃ topology, ring = .ok topology ∧
    topology.shortestPath (labType "a") (labType "c") =
      .ok [labType "a", labType "b", labType "c"] ∧
    ∀ route, IsRoute topology (labType "a") (labType "c") route → 3 ≤ route.length := by
  obtain ⟨topology, made, edges, registered⟩ := ring_edges
  have answered : topology.shortestPath (labType "a") (labType "c") =
      .ok [labType "a", labType "b", labType "c"] := by
    rw [shortestPath_eq_ok_iff (unknown?_eq_none_iff.mpr registered), edges]
    exact shortestWalk?_ringEdges
  have routed := (shortestPath_exact topology (labType "a") (labType "c")).2 registered
  exact ⟨topology, made, answered, (routed.shortest _ answered).2.2⟩

end PathQuery.Topology
