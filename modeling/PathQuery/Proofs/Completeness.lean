/-
This file proves that a run of a compiled query over memories misses nothing. A stored record that
meets the conditions of a node and has the value of an item in the attribute that a link joins
meets both in one list, so a memory that answers brings it. The group of the task that follows the
link is found under the item, since no other task takes its identity, and narrowing keeps every
value that a further link starts from.
-/

import PathQuery.Proofs.Joins

namespace PathQuery

/-! ### What a memory brings -/

/-- A memory that answers brings every record on the shelves asked for that meets the conditions. -/
theorem Reader.Memory.fetch_of_no_error {memory : Memory} {request : Request}
    (quiet : (memory.reader.fetch request).parts.2 = none) :
    (memory.reader.fetch request).parts.1 =
      Record.select (request.profiles.flatMap (memory.shelf request.typeName)) request.attrs
        request.conditions := by
  simp only [reader, fetch] at quiet ⊢
  cases lookup : memory.failures.lookup request.typeName with
  | some message =>
    rw [lookup] at quiet
    cases quiet
  | none => rfl

namespace Run

variable {memories : List Reader.Memory} {query : Query} {topology : Topology} {plan : Plan}

/-- A task that a memory answers brings every stored record that meets the conditions of the task,
narrowed to what the plan asks for. -/
theorem mem_records_of_stored {task : Task} {node : Plan.Node} {memory : Reader.Memory}
    (found : plan.node? task.node = some node) (bound : node.spec.reader = memory.reader)
    (quiet : (task.perform plan).error = none) {profile : String}
    (chosen : profile ∈ node.spec.profiles) {stored : Record}
    (shelved : stored ∈ memory.shelf node.spec.kind.name profile)
    (met : stored.meets task.conditions = true) :
    stored.project (plan.fetchAttrs node.id) ∈ (task.perform plan).records := by
  rw [Task.perform_of_node found, bound] at quiet ⊢
  rw [Reader.Memory.fetch_of_no_error quiet]
  refine List.mem_map.mpr ⟨stored, List.mem_filter.mpr ⟨?_, met⟩, rfl⟩
  exact List.mem_flatMap.mpr ⟨profile, chosen, shelved⟩

/-- Every node of a compiled plan is read under the profiles that the query chooses, from the memory
of its namespace. -/
theorem memory_of_compile
    (compiled : Plan.compile query topology (memories.map (·.reader)) = .ok plan) :
    ∃ offer profiles, Plan.offered (memories.map (·.reader)) = .ok offer ∧
      Plan.selected query.profiles offer = .ok profiles ∧
      ∀ node ∈ plan.nodes, node.spec.profiles = profiles ∧
        ∃ memory ∈ memories, node.spec.reader = memory.reader ∧
          Reader.ofSpace? (memories.map (·.reader)) node.spec.kind.space = some memory.reader := by
  obtain ⟨offer, profiles, given, chosen, bound⟩ := Plan.bound_of_compile compiled
  refine ⟨offer, profiles, given, chosen, fun node member => ?_⟩
  obtain ⟨read, reader⟩ := bound node member
  obtain ⟨memory, among, same⟩ := List.mem_map.mp (Reader.mem_of_ofSpace? reader)
  exact ⟨read, memory, among, same.symm, same ▸ reader⟩

/-! ### The group that follows a link -/

/-- A task that has its identity for itself leaves its group under the item it starts from. -/
theorem group_of_follows {root : Plan.Node} (set : plan.root = .ok root) {done : List Task}
    (history : History plan root [] done)
    {before next : Task} {record : Record} {link : Plan.Link} {target : Plan.Node} {value : String}
    (arises : Arises plan before) (sole : Sole plan next)
    (follows : Task.Follows plan before record link target value next) :
    next.group plan ∈ (Result.ofGroups (done.map (Task.group plan))).groups.values ∧
      next.group plan ∈ (Result.ofGroups (done.map (Task.group plan))).childGroups
        ((before.perform plan).itemId record) := by
  have arisesToo := arises.of_follows follows
  have found := history.group?_of_sole set arisesToo sole
  refine ⟨Result.mem_values_of_group? found, Result.mem_childGroups.mpr ⟨found, next.group plan,
    List.mem_map.mpr ⟨next, (history.closed set).mem arisesToo, rfl⟩, rfl, ?_⟩⟩
  rw [Task.group_parent, follows.eq]
  rfl

/-! ### Nothing is missed -/

/-- In a run of a compiled query over memories that answers without errors, every link that an item
has a value for leads to a group under the item, with the value as its condition. That group holds
every record that is stored for the target under a chosen profile, meets the conditions of the
target and has the value; the record keeps what the links of the target start from. -/
theorem join_complete {result : Result}
    (compiled : Plan.compile query topology (memories.map (·.reader)) = .ok plan)
    (completes : Completes plan result)
    (quiet : ∀ group ∈ result.groups.values, group.fetchError = none)
    (apart : ∀ first second, Arises plan first → Arises plan second → first.id = second.id →
      first = second) :
    ∃ offer profiles, Plan.offered (memories.map (·.reader)) = .ok offer ∧
      Plan.selected query.profiles offer = .ok profiles ∧
      ∀ group ∈ result.groups.values, ∀ item ∈ group.items, ∀ link ∈ plan.linksFrom group.node,
      ∀ value, item.record.value? link.mapping.source = some value →
        ∃ target, plan.node? link.target = some target ∧
        ∃ memory ∈ memories, target.spec.reader = memory.reader ∧
          Reader.ofSpace? (memories.map (·.reader)) target.spec.kind.space = some memory.reader ∧
        ∃ child ∈ result.childGroups item.id, child.node = target.id ∧
          child.link = [.equals link.mapping.target value] ∧
          ∀ profile ∈ profiles, ∀ stored ∈ memory.shelf target.spec.kind.name profile,
            stored.meets target.spec.conditions = true →
            stored.value? link.mapping.target = some value →
            ∃ found ∈ child.items, found.record = stored.project (plan.fetchAttrs target.id) ∧
              ∀ further ∈ plan.linksFrom target.id,
                found.record.value? further.mapping.source =
                  stored.value? further.mapping.source := by
  obtain ⟨offer, profiles, given, chosen, bound⟩ := memory_of_compile compiled
  have formed := (Plan.built_of_compile compiled).wellFormed
  refine ⟨offer, profiles, given, chosen, ?_⟩
  intro group member item held link leaves value valued
  obtain ⟨root, done, set, history, rfl⟩ := history_of_completes completes
  obtain ⟨before, performed, rfl⟩ := List.mem_map.mp (Result.mem_of_mem_values member)
  obtain ⟨record, brought, rfl⟩ := List.mem_map.mp held
  have arises := history.arise set before performed
  rw [Task.group_node] at leaves
  obtain ⟨target, known⟩ := formed.target_node (Plan.mem_linksFrom.mp leaves).1
  have follows : Task.Follows plan before record link target value
      (Task.follow ((before.perform plan).itemId record) link target value) :=
    ⟨brought, leaves, known, valued, rfl⟩
  have sole : Sole plan (Task.follow ((before.perform plan).itemId record) link target value) :=
    fun other arisesToo => apart other _ arisesToo (arises.of_follows follows)
  obtain ⟨recorded, listed⟩ := group_of_follows set history arises sole follows
  have found := Plan.node?_self known
  obtain ⟨read, memory, among, same, reader⟩ := bound target (Plan.node?_some known).1
  refine ⟨target, known, memory, among, same, reader, _, listed, Task.group_node _ _,
    Task.group_link _ _, ?_⟩
  intro profile picked stored shelved met joined
  -- The conditions of the task are those of the target with the value asked for last.
  have narrowed := mem_records_of_stored found same (quiet _ recorded)
    (read.symm ▸ picked) shelved (Record.meets_append met joined)
  refine ⟨_, List.mem_map.mpr ⟨_, narrowed, rfl⟩, rfl, fun further starts => ?_⟩
  exact Record.value?_project (Plan.source_mem_fetchAttrs found starts)

/-- The same of the root, where a run starts: its group holds every record that is stored for the
root under a chosen profile and meets the conditions of the root. -/
theorem root_complete {result : Result}
    (compiled : Plan.compile query topology (memories.map (·.reader)) = .ok plan)
    (completes : Completes plan result)
    (quiet : ∀ group ∈ result.groups.values, group.fetchError = none) :
    ∃ offer profiles, Plan.offered (memories.map (·.reader)) = .ok offer ∧
      Plan.selected query.profiles offer = .ok profiles ∧
      ∃ root, plan.root = .ok root ∧ ∃ memory ∈ memories, root.spec.reader = memory.reader ∧
      ∃ group, result.group? Identity.root = some group ∧
        ∀ profile ∈ profiles, ∀ stored ∈ memory.shelf root.spec.kind.name profile,
          stored.meets root.spec.conditions = true →
          ∃ found ∈ group.items, found.record = stored.project (plan.fetchAttrs root.id) := by
  obtain ⟨offer, profiles, given, chosen, bound⟩ := memory_of_compile compiled
  obtain ⟨root, done, set, history, rfl⟩ := history_of_completes completes
  have known := Plan.root_ok set
  obtain ⟨read, memory, among, same, -⟩ := bound root (Plan.node?_some known).1
  have recorded := history.group?_of_sole set (.root set) (.root set)
  rw [Task.group_id] at recorded
  refine ⟨offer, profiles, given, chosen, root, set, memory, among, same, _, recorded, ?_⟩
  intro profile picked stored shelved met
  have found : plan.node? (Task.ofRoot root).node = some root := Plan.node?_self known
  have asks : (Task.ofRoot root).conditions = root.spec.conditions := List.append_nil _
  have narrowed := mem_records_of_stored found same
    (quiet _ (Result.mem_values_of_group? recorded)) (read.symm ▸ picked) shelved (asks ▸ met)
  exact ⟨_, List.mem_map.mpr ⟨_, narrowed, rfl⟩, rfl⟩

/-! ### A condition on another attribute -/

def narrowed : Query where
  profiles := .all
  root := ⟨.qualified "r1" "t1", []⟩
  sequence := [(.short, ⟨.bare "t2", [.search ⟨"id", .unequal, "21"⟩]⟩)]

def narrowedPlan : Plan where
  nodes := [⟨"ROOT", ⟨⟨"r1", "t1"⟩, ["main"], [], [], threeRecords.reader⟩⟩,
    ⟨"n-1", ⟨⟨"r1", "t2"⟩, ["main"], [], [⟨"id", .unequal, "21"⟩], threeRecords.reader⟩⟩]
  links := [⟨"ROOT", "n-1", ⟨"a", "b"⟩⟩]

theorem narrowed_compiles :
    Plan.compile narrowed twoTypes [threeRecords.reader] = .ok narrowedPlan := by
  cbv

def narrowedTask : Task :=
  ⟨Identity.task (Identity.item "ROOT" "main" "1") "n-1", "n-1", ⟨"r1", "t2"⟩,
    [⟨"id", .unequal, "21"⟩], [.equals "b" "x"], some (Identity.item "ROOT" "main" "1")⟩

theorem narrowed_root : narrowedPlan.root =
    .ok ⟨"ROOT", ⟨⟨"r1", "t1"⟩, ["main"], [], [], threeRecords.reader⟩⟩ := rfl

theorem narrowed_closed : Closed narrowedPlan [widenedRoot, narrowedTask] := by
  have fromRoot : widenedRoot.further narrowedPlan = [narrowedTask] := rfl
  have fromTask : narrowedTask.further narrowedPlan = [] := rfl
  refine .of_eq narrowed_root ?_
  rw [List.flatMap_cons, List.flatMap_singleton, fromRoot, fromTask]
  rfl

theorem narrowed_arises {task : Task} (arises : Arises narrowedPlan task) :
    task = widenedRoot ∨ task = narrowedTask := by
  simpa using narrowed_closed.mem arises

theorem narrowed_apart {first second : Task} (arises : Arises narrowedPlan first)
    (arisesToo : Arises narrowedPlan second) (same : first.id = second.id) : first = second := by
  have different : narrowedTask.id ≠ widenedRoot.id := Identity.ofComponents_ne_root _
  rcases narrowed_arises arises with rfl | rfl <;> rcases narrowed_arises arisesToo with rfl | rfl
  · rfl
  · exact absurd same.symm different
  · exact absurd same different
  · rfl

theorem narrowed_quiet {result : Result} (completes : Completes narrowedPlan result)
    {group : Result.Group} (member : group ∈ result.groups.values) : group.fetchError = none := by
  obtain ⟨root, done, set, history, rfl⟩ := history_of_completes completes
  obtain ⟨task, performed, rfl⟩ := List.mem_map.mp (Result.mem_of_mem_values member)
  rcases narrowed_arises (history.arise set task performed) with rfl | rfl <;> rfl

/-- The record that has the value of the one item and is not ruled out is found under it. -/
theorem join_complete_narrowed : ∃ result, Completes narrowedPlan result ∧
    ∃ child ∈ result.childGroups (Identity.item "ROOT" "main" "1"), ∃ found ∈ child.items,
      found.record = ⟨"main", "20", [("id", "20"), ("b", "x")]⟩ := by
  obtain ⟨result, completes⟩ : ∃ result, Completes narrowedPlan result :=
    ⟨_, completes_tasks (Plan.built_of_compile narrowed_compiles).wellFormed narrowed_root⟩
  obtain ⟨offer, profiles, given, chosen, complete⟩ := @join_complete [threeRecords] _ _ _ _
    narrowed_compiles completes (fun _ => narrowed_quiet completes) fun _ _ => narrowed_apart
  cases given
  cases chosen
  obtain ⟨root, done, set, history, rfl⟩ := history_of_completes completes
  have recorded := history.group?_of_sole set (.root set) (.root set)
  cases set
  obtain ⟨target, known, memory, among, -, -, child, listed, -, -, all⟩ := complete _
    (Result.mem_values_of_group? recorded) _ List.mem_cons_self _ List.mem_cons_self "x" rfl
  cases known
  cases List.mem_singleton.mp among
  obtain ⟨item, held, record, -⟩ := all "main" List.mem_cons_self
    ⟨"main", "20", [("id", "20"), ("b", "x")]⟩ List.mem_cons_self (by decide) rfl
  exact ⟨_, completes, child, listed, item, held, record⟩

end Run

end PathQuery
