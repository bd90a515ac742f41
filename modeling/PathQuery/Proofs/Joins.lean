/-
This file says which records a run of a compiled query finds under an item, where the records are
held in memory. A group under an item asks for the conditions of its node and for the value of the
item in one list. A record that is let in therefore has the value or meets the conditions, and it
does both unless the conditions ask for values of the attribute that the link joins: these are
alternatives to the value of the item.
-/

import PathQuery.Proofs.Chain
import PathQuery.Proofs.Histories
import PathQuery.Reader.Memory

namespace PathQuery

/-! ### What narrowing keeps -/

namespace Properties

theorem get?_put (properties : Properties) (name value other : String) :
    (properties.put name value).get? other =
      if other = name then some value else properties.get? other := by
  induction properties with
  | nil =>
    rw [put, get?, Dict.lookup_cons]
    rfl
  | cons entry rest inductionHypothesis =>
    obtain ⟨first, held⟩ := entry
    rw [get?] at inductionHypothesis
    rw [put]
    by_cases here : first = name
    · subst here
      rw [if_pos rfl, get?, get?, Dict.lookup_cons, Dict.lookup_cons]
      by_cases same : other = first
      · rw [if_pos same, if_pos same]
      · rw [if_neg same, if_neg same, if_neg same]
    · rw [if_neg here, get?, get?, Dict.lookup_cons, Dict.lookup_cons, inductionHypothesis, get?]
      by_cases same : other = first
      · subst same
        rw [if_pos rfl, if_neg here, if_pos rfl]
      · rw [if_neg same, if_neg same]

/-- Giving the values of some names to these names gives them to no other. -/
theorem get?_ofPairs (properties : Properties) (attrs : List String) (name : String) :
    (ofPairs (attrs.filterMap fun attr =>
      (properties.get? attr).map fun value => (attr, value))).get? name =
      if name ∈ attrs then properties.get? name else none := by
  induction attrs using List.reverseRecOn with
  | nil => rfl
  | append_singleton attrs last inductionHypothesis =>
    rw [List.filterMap_append, ofPairs, List.foldl_append]
    by_cases same : name = last
    · subst same
      rw [if_pos (List.mem_append_right _ (List.mem_singleton_self name))]
      cases held : properties.get? name with
      | none =>
        rw [List.filterMap_cons_none (by rw [held]; rfl), List.filterMap_nil, List.foldl_nil]
        refine inductionHypothesis.trans ?_
        rw [held, ite_self]
      | some value =>
        rw [List.filterMap_cons_some (by rw [held]; rfl), List.filterMap_nil, List.foldl_cons,
          List.foldl_nil, get?_put, if_pos rfl]
    · have before : name ∈ attrs ++ [last] ↔ name ∈ attrs := by
        rw [List.mem_append, List.mem_singleton]
        exact or_iff_left same
      simp only [before]
      cases held : properties.get? last with
      | none =>
        rw [List.filterMap_cons_none (by rw [held]; rfl), List.filterMap_nil, List.foldl_nil]
        exact inductionHypothesis
      | some value =>
        rw [List.filterMap_cons_some (by rw [held]; rfl), List.filterMap_nil, List.foldl_cons,
          List.foldl_nil, get?_put, if_neg same]
        exact inductionHypothesis

theorem get?_project {properties : Properties} {attrs : List String} {name : String}
    (kept : attrs = [] ∨ name ∈ attrs) :
    (properties.project attrs).get? name = properties.get? name := by
  unfold project
  by_cases all : attrs.isEmpty = true
  · rw [if_pos all]
  · have member : name ∈ attrs := kept.resolve_left fun none => all (List.isEmpty_iff.mpr none)
    rw [if_neg all, get?_ofPairs, if_pos member]

end Properties

theorem Record.value?_project {record : Record} {attrs : List String} {attr : String}
    (kept : attrs = [] ∨ attr ∈ attrs) :
    (record.project attrs).value? attr = record.value? attr := by
  rw [value?, value?, project, Properties.get?_project kept]

/-- What is asked of the reader of a node keeps the values that its links start from. -/
theorem Plan.source_mem_fetchAttrs {plan : Plan} {node : Plan.Node} {link : Plan.Link}
    (found : plan.node? node.id = some node) (leaves : link ∈ plan.linksFrom node.id) :
    plan.fetchAttrs node.id = [] ∨ link.mapping.source ∈ plan.fetchAttrs node.id := by
  rw [fetchAttrs, found]
  by_cases all : node.spec.attrs.isEmpty = true
  · exact .inl (if_pos all)
  · refine .inr ?_
    show _ ∈ if node.spec.attrs.isEmpty then [] else _
    rw [if_neg all, List.mem_append, List.mem_eraseDups, List.mem_filter, Bool.not_eq_true',
      List.contains_eq_mem, decide_eq_false_iff_not]
    by_cases named : link.mapping.source ∈ node.spec.attrs
    · exact .inl named
    · exact .inr ⟨List.mem_map.mpr ⟨link, leaves, rfl⟩, named⟩

/-! ### What a memory answers -/

/-- The records that a memory holds for a node, in order. -/
def Plan.Node.shelved (node : Plan.Node) (memory : Reader.Memory) : List Record :=
  node.spec.profiles.flatMap (memory.shelf node.spec.kind.name)

namespace Reader

/-- A memory brings some of the records that it holds, narrowed to the attributes asked for; each of
them meets the conditions. -/
theorem Memory.fetch_parts (memory : Memory) (request : Request) :
    ∃ origins : List Record, origins.Sublist (request.profiles.flatMap
        (memory.shelf request.typeName)) ∧
      (memory.reader.fetch request).parts.1 = origins.map (·.project request.attrs) ∧
      ∀ origin ∈ origins, origin.meets request.conditions = true := by
  simp only [reader, fetch]
  cases memory.failures.lookup request.typeName with
  | some message =>
    exact ⟨[], List.nil_sublist _, rfl, fun _ member => absurd member List.not_mem_nil⟩
  | none => exact ⟨_, List.filter_sublist, rfl, fun _ member => (List.mem_filter.mp member).2⟩

theorem mem_of_ofSpace? {readers : List Reader} {space : String} {reader : Reader}
    (found : ofSpace? readers space = some reader) : reader ∈ readers :=
  List.mem_reverse.mp (List.mem_of_find?_eq_some found)

end Reader

namespace Plan

/-- In a compiled plan all nodes are read under the profiles that the query chooses, and each is
bound to the reader of its namespace. -/
theorem bound_of_compile {query : Query} {topology : Topology} {readers : List Reader}
    {plan : Plan} (compiled : compile query topology readers = .ok plan) :
    ∃ offer profiles, offered readers = .ok offer ∧ selected query.profiles offer = .ok profiles ∧
      ∀ node ∈ plan.nodes, node.spec.profiles = profiles ∧
        Reader.ofSpace? readers node.spec.kind.space = some node.spec.reader := by
  obtain ⟨offer, profiles, first, others, hops, _, given, chosen, realised, -, extended⟩ :=
    compile_ok compiled
  have nodes : plan.nodes = first :: others ++ hops := extended.allNodes
  refine ⟨offer, profiles, given, chosen, fun node member => ?_⟩
  rw [nodes] at member
  rcases List.mem_append.mp member with item | hop
  · obtain ⟨_, -, realises⟩ := exists_of_forall₂_of_mem realised item
    exact ⟨realises.profiles, realises.reader⟩
  · exact ⟨(extended.areHops node hop).profiles, (extended.areHops node hop).reader⟩

theorem reader_mem_of_compile {query : Query} {topology : Topology} {readers : List Reader}
    {plan : Plan} (compiled : compile query topology readers = .ok plan) {node : Node}
    (member : node ∈ plan.nodes) : node.spec.reader ∈ readers := by
  obtain ⟨_, _, -, -, bound⟩ := bound_of_compile compiled
  exact Reader.mem_of_ofSpace? (bound node member).2

end Plan

namespace Run

variable {memories : List Reader.Memory} {query : Query} {topology : Topology} {plan : Plan}

/-- A task of a compiled plan brings records that a memory holds for its node, narrowed to what the
plan asks for; each of them meets the conditions of the task. -/
theorem records_of_task
    (compiled : Plan.compile query topology (memories.map (·.reader)) = .ok plan) {task : Task}
    {node : Plan.Node} (found : plan.node? task.node = some node) :
    ∃ memory ∈ memories, node.spec.reader = memory.reader ∧ ∃ origins,
      List.Sublist origins (node.shelved memory) ∧
      (task.perform plan).records = origins.map (·.project (plan.fetchAttrs node.id)) ∧
      ∀ origin ∈ origins, origin.meets task.conditions = true := by
  have given := Plan.reader_mem_of_compile compiled (Plan.node?_some found).1
  obtain ⟨memory, member, same⟩ := List.mem_map.mp given
  obtain ⟨origins, held, brought, met⟩ := memory.fetch_parts (task.request plan node)
  refine ⟨memory, member, same.symm, origins, held, ?_, met⟩
  rw [Task.perform_of_node found, ← same]
  exact brought

/-! ### Joined and filtered -/

/-- Where a group under an item comes from: a link from the node that found the item to a node that
asks for the value of the stored record behind the item. -/
structure Spawned (memories : List Reader.Memory) (plan : Plan) (parent : String)
    (group : Result.Group) (origin : Record) (link : Plan.Link) (target : Plan.Node)
    (value : String) : Prop where
  item : ∃ (before : Task) (source : Plan.Node), Arises plan before ∧
    plan.node? before.node = some source ∧ link ∈ plan.linksFrom source.id ∧
    (∃ memory ∈ memories, source.spec.reader = memory.reader ∧ origin ∈ source.shelved memory) ∧
    ∃ record ∈ (before.perform plan).records,
      record = origin.project (plan.fetchAttrs source.id) ∧
      (before.perform plan).itemId record = parent
  known : plan.node? link.target = some target
  node : group.node = target.id
  asks : group.link = [.equals link.mapping.target value]
  held : origin.value? link.mapping.source = some value

/-- A group that a run of a compiled plan records under an item follows a link from it. -/
theorem spawned_of_completes {result : Result}
    (compiled : Plan.compile query topology (memories.map (·.reader)) = .ok plan)
    (completes : Completes plan result) {group : Result.Group}
    (member : group ∈ result.groups.values) {parent : String}
    (under : group.parent = some parent) :
    ∃ (task : Task) (origin : Record) (link : Plan.Link) (target : Plan.Node) (value : String),
      group = task.group plan ∧
      task.conditions = target.spec.conditions ++ [.equals link.mapping.target value] ∧
      task.node = target.id ∧ Spawned memories plan parent group origin link target value := by
  obtain ⟨root, done, set, history, rfl⟩ := history_of_completes completes
  obtain ⟨task, performed, rfl⟩ := List.mem_map.mp (Result.mem_of_mem_values member)
  have arises := history.arise set task performed
  rw [Task.group_parent] at under
  cases arises with
  | root => cases under
  | @further before _ earlier spawned =>
    obtain ⟨record, link, target, value, follows⟩ := earlier.follows spawned
    obtain ⟨source, found, -⟩ := earlier.node
    obtain ⟨memory, given, same, origins, held, brought, -⟩ := records_of_task compiled found
    obtain ⟨origin, stored, narrowed⟩ := List.mem_map.mp (brought ▸ follows.brought)
    have leaves : link ∈ plan.linksFrom source.id := by
      rw [(Plan.node?_some found).2]
      exact follows.leaves
    have value_eq : origin.value? link.mapping.source = some value := by
      have kept := Plan.source_mem_fetchAttrs (Plan.node?_self found) leaves
      rw [← Record.value?_project kept, narrowed]
      exact follows.held
    rw [follows.eq] at under ⊢
    refine ⟨_, origin, link, target, value, rfl, rfl, rfl, ?_⟩
    exact {
      item := ⟨before, source, earlier, found, leaves,
        ⟨memory, given, same, held.subset stored⟩, record, follows.brought, narrowed.symm,
        Option.some.inj under⟩
      known := follows.known
      node := Task.group_node _ _
      asks := Task.group_link _ _
      held := value_eq }

/-- In a run of a compiled query over memories, every group under an item follows a link from it,
and every record that the group has found has the value that joins it to the item or meets the
conditions of its node. It does both exactly where these conditions ask for no value of the joined
attribute, or the record has the joining value and they ask for this one. -/
theorem joined_and_filtered {result : Result}
    (compiled : Plan.compile query topology (memories.map (·.reader)) = .ok plan)
    (completes : Completes plan result) {group : Result.Group}
    (member : group ∈ result.groups.values) {parent : String}
    (under : group.parent = some parent) :
    ∃ origin link target value, Spawned memories plan parent group origin link target value ∧
      ∃ memory ∈ memories, target.spec.reader = memory.reader ∧ ∃ origins : List Record,
        origins.Sublist (target.shelved memory) ∧
        group.items.map (·.record) = origins.map (·.project (plan.fetchAttrs target.id)) ∧
        ∀ stored ∈ origins,
          (stored.value? link.mapping.target = some value ∨
            stored.meets target.spec.conditions = true) ∧
          (stored.value? link.mapping.target = some value ∧
              stored.meets target.spec.conditions = true ↔
            (∀ content, .equals link.mapping.target content ∉ target.spec.conditions) ∨
              (stored.value? link.mapping.target = some value ∧
                .equals link.mapping.target value ∈ target.spec.conditions)) := by
  obtain ⟨task, origin, link, target, value, rfl, conditions, asks, spawned⟩ :=
    spawned_of_completes compiled completes member under
  have found : plan.node? task.node = some target := by
    rw [asks]
    exact Plan.node?_self spawned.known
  obtain ⟨memory, given, same, origins, held, brought, met⟩ := records_of_task compiled found
  refine ⟨origin, link, target, value, spawned, memory, given, same, origins, held, ?_, ?_⟩
  · rw [Task.group_items, List.map_map, ← brought]
    exact List.map_id _
  · intro stored kept
    have letIn := met stored kept
    rw [conditions] at letIn
    exact ⟨Record.joined_or_meets letIn, Record.joined_and_meets_iff letIn⟩

/-! ### A condition on the joined attribute -/

/-- Two types of one namespace with a link between them. -/
def twoTypes : Topology where
  types := ["t1", "t2"].foldl
    (fun types name => types.insert ("r1." ++ name) ⟨⟨"r1", name⟩, ["id", "a", "b"]⟩) .empty
  links := [⟨⟨"r1", "t1"⟩, ⟨"r1", "t2"⟩, ⟨"a", "b"⟩⟩]

/-- A memory with one record to start from and two that differ in the joined attribute. -/
def threeRecords : Reader.Memory :=
  (((Reader.Memory.empty "r1" ["main"]).store "main" "t1" [("id", "1"), ("a", "x")]).store
    "main" "t2" [("id", "20"), ("b", "x")]).store "main" "t2" [("id", "21"), ("b", "z")]

def widened : Query where
  profiles := .all
  root := ⟨.qualified "r1" "t1", []⟩
  sequence := [(.short, ⟨.bare "t2", [.search (.equals "b" "z")]⟩)]

def widenedPlan : Plan where
  nodes := [⟨"ROOT", ⟨⟨"r1", "t1"⟩, ["main"], [], [], threeRecords.reader⟩⟩,
    ⟨"n-1", ⟨⟨"r1", "t2"⟩, ["main"], [], [.equals "b" "z"], threeRecords.reader⟩⟩]
  links := [⟨"ROOT", "n-1", ⟨"a", "b"⟩⟩]

theorem widened_compiles :
    Plan.compile widened twoTypes [threeRecords.reader] = .ok widenedPlan := by
  cbv

def widenedRoot : Task := ⟨"ROOT", "ROOT", ⟨"r1", "t1"⟩, [], [], none⟩

/-- The task that follows the link of the plan. -/
def widenedTask : Task :=
  ⟨Identity.task (Identity.item "ROOT" "main" "1") "n-1", "n-1", ⟨"r1", "t2"⟩, [.equals "b" "z"],
    [.equals "b" "x"], some (Identity.item "ROOT" "main" "1")⟩

theorem widened_completes : Completes widenedPlan
    (Result.ofGroups [widenedRoot.group widenedPlan, widenedTask.group widenedPlan]) := by
  have first : State.Step widenedPlan ⟨[widenedRoot], .empty⟩
      ⟨[widenedTask], Result.ofGroups [widenedRoot.group widenedPlan]⟩ :=
    .done [] [] widenedRoot .empty
  have second : State.Step widenedPlan
      ⟨[widenedTask], Result.ofGroups [widenedRoot.group widenedPlan]⟩
      ⟨[], Result.ofGroups [widenedRoot.group widenedPlan, widenedTask.group widenedPlan]⟩ :=
    .done [] [] widenedTask _
  exact ⟨_, rfl, .more first (.more second (.none _))⟩

/-- The group under the one item of the root follows the link from the record behind it. -/
theorem joined_and_filtered_widened : ∃ result, Completes widenedPlan result ∧
    ∃ group ∈ result.groups.values, ∃ origin link target value,
      Spawned [threeRecords] widenedPlan (Identity.item "ROOT" "main" "1") group origin link target
        value := by
  have member := Result.last_mem_values [widenedRoot.group widenedPlan]
    (widenedTask.group widenedPlan)
  obtain ⟨origin, link, target, value, spawned, -⟩ := @joined_and_filtered [threeRecords] _ _ _ _
    widened_compiles widened_completes _ member _ (Task.group_parent widenedPlan widenedTask)
  exact ⟨_, widened_completes, _, member, origin, link, target, value, spawned⟩

/-- Two records are let in, one that does not have the value of the item, and one that does not meet
the condition of the node. -/
theorem widened_lets_in : Plan.compile widened twoTypes [threeRecords.reader] = .ok widenedPlan ∧
    ∃ result, Completes widenedPlan result ∧ ∃ group ∈ result.groups.values,
      group.parent = some (Identity.item "ROOT" "main" "1") ∧
      group.link = [.equals "b" "x"] ∧
      (∃ record ∈ group.items.map (·.record), record ∈ threeRecords.shelf "t2" "main" ∧
        record.value? "b" ≠ some "x") ∧
      ∃ record ∈ group.items.map (·.record), record ∈ threeRecords.shelf "t2" "main" ∧
        ∃ node, widenedPlan.node? group.node = some node ∧
          record.meets node.spec.conditions = false := by
  have records : (widenedTask.group widenedPlan).items.map (·.record) =
      [⟨"main", "20", [("id", "20"), ("b", "x")]⟩,
        ⟨"main", "21", [("id", "21"), ("b", "z")]⟩] := rfl
  refine ⟨widened_compiles, _, widened_completes, widenedTask.group widenedPlan,
    Result.last_mem_values [widenedRoot.group widenedPlan] _, Task.group_parent _ _,
    Task.group_link _ _, ?_, ?_⟩
  · rw [records]
    exact ⟨_, List.mem_cons_of_mem _ List.mem_cons_self, by decide, by decide⟩
  · rw [records, Task.group_node]
    exact ⟨_, List.mem_cons_self, by decide, _, rfl, by decide⟩

end Run

end PathQuery
