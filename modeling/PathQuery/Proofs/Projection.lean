/-
This file proves that the attributes which a query shows do not matter to what is found. A plan that
shows attributes is compared with the same plan for whole records. Narrowing a record comes after
the conditions are tested and keeps the values that links start from, so every task finds the same
records, up to their properties, and has the same further tasks. The properties that are left are
the ones asked for, in order, and those that links start from.
-/

import PathQuery.Proofs.Joins
import PathQuery.Proofs.Lockstep
import PathQuery.Proofs.Stores
import PathQuery.Proofs.Walks
import PathQuery.Proofs.WholeRecords

namespace PathQuery

/-! ### Tasks of a plan for whole records -/

namespace Run

variable {plan : Plan} (stores : ∀ node ∈ plan.nodes, node.spec.reader.IsStore) (task : Task)

include stores in
/-- A task brings the same records, with the same failure, but for what they are narrowed to. -/
theorem perform_bare : ∃ origins error,
    task.perform plan =
      ⟨task, origins.map (·.project (plan.fetchAttrs task.node)), error⟩ ∧
    task.perform plan.bare = ⟨task, origins, error⟩ ∧
    ∀ node, plan.node? task.node = some node →
      ∀ origin ∈ origins, node.spec.reader.Stores node.spec.kind.name origin := by
  cases found : plan.node? task.node with
  | none =>
    refine ⟨[], some (Plan.Error.unknownNode task.node).message, ?_, ?_, nofun⟩
    · rw [Task.perform, found]
      rfl
    · rw [Task.perform, Plan.node?_bare, found]
      rfl
  | some node =>
    obtain ⟨member, same⟩ := Plan.node?_some found
    obtain ⟨held, failure, stored, answers⟩ :=
      (stores node member).answers node.spec.kind.name node.spec.profiles
    have foundBare : plan.bare.node? task.node = some node.bare := by
      rw [Plan.node?_bare, found]
      rfl
    refine ⟨held.filter (·.meets task.conditions), failure, ?_, ?_, ?_⟩
    · rw [Task.perform_of_node found, Task.request, answers, same]
      rfl
    · rw [Task.perform_of_node foundBare, Task.request, Plan.fetchAttrs_bare]
      have whole := answers [] task.conditions
      have unchanged : Record.select held [] task.conditions =
          held.filter (·.meets task.conditions) := List.map_id _
      rw [unchanged] at whole
      exact congrArg (fun parts : List Record × Option String =>
        (⟨task, parts.1, parts.2⟩ : Outcome)) whole
    · rintro _ ⟨⟩ origin kept
      obtain ⟨_, -, holds⟩ := stored origin (List.mem_filter.mp kept).1
      exact holds.stores

theorem links_bare : (task.perform plan).links plan = (task.perform plan.bare).links plan.bare := by
  rw [Outcome.links, Outcome.links, Task.perform_task, Task.perform_task, Plan.linksOf,
    Plan.linksOf, Plan.contains_bare, Plan.linksFrom_bare]

/-- What becomes of the links does not depend on what a record is narrowed to: it keeps the values
that they start from. -/
theorem pursuits_bare (origin : Record) :
    (task.perform plan).pursuits plan (origin.project (plan.fetchAttrs task.node)) =
      (task.perform plan.bare).pursuits plan.bare origin := by
  have items : (task.perform plan).itemId (origin.project (plan.fetchAttrs task.node)) =
      (task.perform plan.bare).itemId origin := by
    rw [Outcome.itemId, Outcome.itemId, Task.perform_task, Task.perform_task]
    rfl
  rw [Outcome.pursuits, Outcome.pursuits, items, ← links_bare]
  cases found : plan.node? task.node with
  | none =>
    have unlinked : ((task.perform plan).links plan).1 = [] := by
      rw [Outcome.links, Task.perform_task, Plan.linksOf, Plan.contains, found]
      rfl
    rw [unlinked, List.map_nil, List.map_nil]
  | some node =>
    have same := (Plan.node?_some found).2
    rw [Task.links_perform found]
    refine List.map_congr_left fun link leaves => ?_
    rw [← same] at leaves ⊢
    rw [Outcome.pursue, Outcome.pursue, Plan.node?_bare,
      Record.value?_project (Plan.source_mem_fetchAttrs (Plan.node?_self found) leaves)]
    cases plan.node? link.target <;> rfl

include stores in
theorem records_bare : (task.perform plan).records =
    (task.perform plan.bare).records.map (·.project (plan.fetchAttrs task.node)) := by
  obtain ⟨origins, error, brings, bringsBare, -⟩ := perform_bare stores task
  rw [brings, bringsBare]

include stores in
theorem error_bare : (task.perform plan).error = (task.perform plan.bare).error := by
  obtain ⟨origins, error, brings, bringsBare, -⟩ := perform_bare stores task
  rw [brings, bringsBare]

include stores in
/-- A task leads to the same tasks, whatever its records are narrowed to. -/
theorem further_bare : task.further plan = task.further plan.bare := by
  rw [Task.further, Task.further, Outcome.tasks, Outcome.tasks, records_bare stores,
    List.flatMap_map]
  refine List.flatMap_congr fun origin _ => ?_
  rw [Outcome.tasksOf, Outcome.tasksOf, pursuits_bare]

include stores in
/-- An item is the same, but for the properties that its record is narrowed to. -/
theorem item_bare (origin : Record) :
    ((task.perform plan).item plan (origin.project (plan.fetchAttrs task.node))).bare =
      ((task.perform plan.bare).item plan.bare origin).bare := by
  rw [Outcome.item, Outcome.item, Outcome.linkErrors, Outcome.linkErrors, pursuits_bare,
    Outcome.itemId, Outcome.itemId, Task.perform_task, Task.perform_task,
    error_bare stores task]
  rfl

include stores in
/-- A task leaves the same group, but for the properties of its records. -/
theorem group_bare : (task.group plan).bare = (task.group plan.bare).bare := by
  have items : (task.group plan).bare.items = (task.group plan.bare).bare.items := by
    show ((task.perform plan).records.map _).map _ =
      ((task.perform plan.bare).records.map _).map _
    rw [records_bare stores, List.map_map, List.map_map, List.map_map]
    exact List.map_congr_left fun origin _ => item_bare stores task origin
  simp only [Task.group, Outcome.group, Result.Group.bare, ← links_bare, Task.perform_task,
    error_bare stores task] at items ⊢
  rw [items]

include stores in
/-- In the same order, the runs of a plan and of the plan for whole records differ in properties
only. -/
theorem runIn_bare (order : List Nat) :
    (plan.runIn order).map Result.bare = (plan.bare.runIn order).map Result.bare := by
  have advances : Progress.advance plan.bare = Progress.advance plan := by
    funext progress position
    rw [Progress.advance, Progress.advance]
    refine congrArg (Option.map · _) (funext fun task => ?_)
    rw [further_bare stores task]
  have tasks : plan.bare.tasksIn order = plan.tasksIn order := by
    rw [Plan.tasksIn, Plan.tasksIn, Plan.root_bare, advances]
    cases plan.root <;> rfl
  rw [Plan.runIn, Plan.runIn, tasks, Option.map_map, Option.map_map]
  refine congrArg (Option.map · _) (funext fun done => ?_)
  rw [Function.comp_apply, Function.comp_apply, Result.ofGroups_bare, Result.ofGroups_bare,
    List.map_map, List.map_map]
  exact congrArg Result.ofGroups (List.map_congr_left fun task _ => group_bare stores task)

end Run

/-! ### The properties that are left -/

namespace Properties

/-- The names that have a value, each with it, in the order in which they are given. -/
def pick (properties : Properties) (names : List String) : Properties :=
  names.filterMap fun name => (properties.get? name).map fun value => (name, value)

theorem put_of_not_mem {name value : String} {properties : Properties}
    (fresh : name ∉ properties.map Prod.fst) :
    properties.put name value = properties ++ [(name, value)] := by
  induction properties with
  | nil => rfl
  | cons first rest inductionHypothesis =>
    obtain ⟨other, held⟩ := first
    have different : name ≠ other := List.ne_of_not_mem_cons fresh
    rw [put, if_neg different.symm, inductionHypothesis (List.not_mem_of_not_mem_cons fresh),
      List.cons_append]

theorem ofPairs_of_nodup {pairs : List (String × String)}
    (distinct : (pairs.map Prod.fst).Nodup) : ofPairs pairs = pairs := by
  induction pairs using List.reverseRecOn with
  | nil => rfl
  | append_singleton pairs last inductionHypothesis =>
    rw [List.map_append, List.nodup_append] at distinct
    obtain ⟨distinct, -, apart⟩ := distinct
    have whole := inductionHypothesis distinct
    rw [ofPairs] at whole ⊢
    rw [List.foldl_append, whole]
    exact put_of_not_mem fun member => apart _ member _ List.mem_cons_self rfl

/-- Where no name is given twice, the named properties are kept in the order of the names. -/
theorem project_of_nodup (properties : Properties) {names : List String} (given : names ≠ [])
    (distinct : names.Nodup) : properties.project names = properties.pick names := by
  rw [project, if_neg fun none => given (List.isEmpty_iff.mp none)]
  refine ofPairs_of_nodup (List.pairwise_map.mpr (List.pairwise_filterMap.mpr (distinct.imp ?_)))
  intro name other different pair found pairToo foundToo same
  obtain ⟨_, -, rfl⟩ := Option.map_eq_some_iff.mp found
  obtain ⟨_, -, rfl⟩ := Option.map_eq_some_iff.mp foundToo
  exact different same

end Properties

namespace Plan

variable {topology : Topology} {readers : List Reader} {query : Query} {plan : Plan}

/-- The attributes that the links of a node start from, but for those that it shows. -/
def unlisted (plan : Plan) (node : Node) : List String :=
  ((plan.linksFrom node.id).map (·.mapping.source)).filter fun attr =>
    !node.spec.attrs.contains attr

/-- The attributes that a node of a compiled plan shows differ from each other. -/
theorem nodup_attrs_of_compile (compiled : compile query topology readers = .ok plan) {node : Node}
    (member : node ∈ plan.nodes) : node.spec.attrs.Nodup := by
  obtain ⟨_, _, first, others, hops, walk, -, -, laidOut⟩ := laidOut_of_compile compiled
  rw [laidOut.nodes] at member
  rcases List.mem_append.mp member with item | hop
  · obtain ⟨_, -, realises⟩ := exists_of_forall₂_of_mem laidOut.realised item
    rw [realises.attrs]
    exact nodup_eraseDups _
  · rw [(laidOut.plain node hop).attrs]
    exact List.nodup_nil

/-- A node of a compiled plan that shows attributes fetches these, and then what its links start
from. None is fetched twice. -/
theorem fetchAttrs_of_compile (compiled : compile query topology readers = .ok plan) {node : Node}
    (found : plan.node? node.id = some node) (shows : node.spec.attrs ≠ []) :
    plan.fetchAttrs node.id = node.spec.attrs ++ plan.unlisted node ∧
      (plan.fetchAttrs node.id).Nodup := by
  have member := (node?_some found).1
  obtain ⟨_, _, first, _, _, walk, -, -, laidOut⟩ := laidOut_of_compile compiled
  have single : ((plan.linksFrom node.id).map (·.mapping.source)).Nodup := by
    have visited := laidOut.along.visits.mem_iff.mpr member
    rcases laidOut.along.chain.linksFrom visited with none | ⟨link, only⟩
    · rw [none]
      exact List.nodup_nil
    · rw [only]
      exact List.nodup_singleton _
  have distinct : (plan.unlisted node).Nodup := single.filter _
  have fetches : plan.fetchAttrs node.id = node.spec.attrs ++ plan.unlisted node := by
    rw [fetchAttrs, found]
    show (if node.spec.attrs.isEmpty then [] else _) = _
    rw [if_neg fun none => shows (List.isEmpty_iff.mp none)]
    exact congrArg _ (eraseDups_of_nodup distinct)
  rw [fetches]
  refine ⟨rfl, List.nodup_append.mpr ⟨nodup_attrs_of_compile compiled member, distinct, ?_⟩⟩
  rintro attr listed _ unlisted rfl
  have absent := (List.mem_filter.mp unlisted).2
  rw [List.contains_iff_mem.mpr listed] at absent
  cases absent

end Plan

namespace Run

variable {topology : Topology} {readers : List Reader} {query : Query} {plan : Plan}

/-- A group of a node that shows attributes has stored records with the attributes that the node
shows and those that its links start from, in this order, as far as the records have them. -/
theorem records_of_group (compiled : Plan.compile query topology readers = .ok plan)
    (stores : ∀ reader ∈ readers, reader.IsStore) {result : Result}
    (completes : Completes plan result) {group : Result.Group}
    (member : group ∈ result.groups.values) {node : Plan.Node}
    (found : plan.node? group.node = some node) (shows : node.spec.attrs ≠ []) :
    ∃ origins : List Record,
      (∀ origin ∈ origins, node.spec.reader.Stores node.spec.kind.name origin) ∧
      group.items.map (·.record) = origins.map fun origin =>
        { origin with
          properties := origin.properties.pick (node.spec.attrs ++ plan.unlisted node) } := by
  obtain ⟨root, done, -, -, rfl⟩ := history_of_completes completes
  obtain ⟨task, -, rfl⟩ := List.mem_map.mp (Result.mem_of_mem_values member)
  rw [Task.group_node] at found
  obtain ⟨origins, error, brings, -, stored⟩ := perform_bare (fun node given =>
    stores _ (Plan.reader_mem_of_compile compiled given)) task
  obtain ⟨fetches, distinct⟩ :=
    Plan.fetchAttrs_of_compile compiled (Plan.node?_self found) shows
  refine ⟨origins, stored node found, ?_⟩
  have records : (task.group plan).items.map (·.record) = (task.perform plan).records := by
    rw [Task.group_items, List.map_map]
    exact List.map_id _
  rw [records, brings, ← (Plan.node?_some found).2]
  refine List.map_congr_left fun origin _ => ?_
  rw [fetches] at distinct ⊢
  rw [Record.project, Properties.project_of_nodup _ (List.append_ne_nil_of_left_ne_nil shows _)
    distinct]

/-- Which attributes a query shows does not matter to what is found. Two queries that differ in
these only have runs in the same orders, first in, first out among them wherever the workers are
started, with results that differ in properties only. Where a node shows attributes, its records
have these, and then those that its links start from. -/
theorem attributes_change_properties_only {first second : Query} {other : Plan}
    (alike : first.bare = second.bare) (stores : ∀ reader ∈ readers, reader.IsStore)
    (compiled : Plan.compile first topology readers = .ok plan)
    (compiledToo : Plan.compile second topology readers = .ok other) :
    (∀ order, (plan.runIn order).map Result.bare = (other.runIn order).map Result.bare) ∧
      (∀ machine size, Machine.Starts machine size → ∃ result otherResult,
        plan.run machine size = .ok result ∧ other.run machine size = .ok otherResult ∧
          result.bare = otherResult.bare) ∧
      ∀ result, Completes plan result → ∀ group ∈ result.groups.values, ∀ node,
        plan.node? group.node = some node → node.spec.attrs ≠ [] → ∃ origins : List Record,
          (∀ origin ∈ origins, node.spec.reader.Stores node.spec.kind.name origin) ∧
          group.items.map (·.record) = origins.map fun origin =>
            { origin with
              properties := origin.properties.pick (node.spec.attrs ++ plan.unlisted node) } := by
  have same : plan.bare = other.bare := by
    have bare := Plan.compile_bare compiledToo
    rw [← alike, Plan.compile_bare compiled] at bare
    exact Except.ok.inj bare
  have runs : ∀ order,
      (plan.runIn order).map Result.bare = (other.runIn order).map Result.bare := by
    intro order
    rw [runIn_bare fun node given => stores _ (Plan.reader_mem_of_compile compiled given), same,
      runIn_bare fun node given => stores _ (Plan.reader_mem_of_compile compiledToo given)]
  obtain ⟨_, _, root, _, _, _, -, -, laidOut⟩ := Plan.laidOut_of_compile compiled
  obtain ⟨_, _, goal, _, _, _, -, -, laidOutToo⟩ := Plan.laidOut_of_compile compiledToo
  refine ⟨runs, fun machine size starts => ?_, ?_⟩
  · obtain ⟨result, ran⟩ := run_ok laidOut.along.set starts
    obtain ⟨otherResult, ranToo⟩ := run_ok laidOutToo.along.set starts
    exact ⟨result, otherResult, ran, ranToo, run_alike (Plan.built_of_compile compiled).wellFormed
      (Plan.built_of_compile compiledToo).wellFormed runs ran ranToo⟩
  · intro result completes group member node found shows
    exact records_of_group compiled stores completes member found shows

/-! ### A selection without the joined attribute -/

/-- The same as a query for whole records, but for the attribute that is shown of the root. -/
def labelled : Query := { widened with root := ⟨.qualified "r1" "t1", [.show (.named ["id"])]⟩ }

/-- The root of the plan shows one attribute, and its link starts from another. -/
def labelledRoot : Plan.Node :=
  ⟨"ROOT", ⟨⟨"r1", "t1"⟩, ["main"], ["id"], [], threeRecords.reader⟩⟩

def labelledPlan : Plan where
  nodes := [labelledRoot,
    ⟨"n-1", ⟨⟨"r1", "t2"⟩, ["main"], [], [.equals "b" "z"], threeRecords.reader⟩⟩]
  links := [⟨"ROOT", "n-1", ⟨"a", "b"⟩⟩]

theorem labelled_compiles :
    Plan.compile labelled twoTypes [threeRecords.reader] = .ok labelledPlan := by
  cbv

/-- The record of the root keeps the attribute that is shown and the one that the link starts
from. -/
theorem attributes_change_properties_only_labelled :
    (∀ order, (labelledPlan.runIn order).map Result.bare =
      (widenedPlan.runIn order).map Result.bare) ∧
    ∃ result, Completes labelledPlan result ∧ ∃ group ∈ result.groups.values,
      ∃ origins : List Record, (∀ origin ∈ origins, threeRecords.reader.Stores "t1" origin) ∧
        group.items.map (·.record) = origins.map fun origin =>
          { origin with properties := origin.properties.pick ["id", "a"] } := by
  have alike : labelled.bare = widened.bare := rfl
  have stores : ∀ reader ∈ [threeRecords.reader], reader.IsStore := fun reader member => by
    rw [List.mem_singleton.mp member]
    exact .memory threeRecords
  obtain ⟨runs, -, narrowed⟩ :=
    attributes_change_properties_only alike stores labelled_compiles widened_compiles
  have first : State.Step labelledPlan ⟨[widenedRoot], .empty⟩
      ⟨[widenedTask], Result.ofGroups [widenedRoot.group labelledPlan]⟩ :=
    .done [] [] widenedRoot .empty
  have second : State.Step labelledPlan
      ⟨[widenedTask], Result.ofGroups [widenedRoot.group labelledPlan]⟩
      ⟨[], Result.ofGroups [widenedRoot.group labelledPlan, widenedTask.group labelledPlan]⟩ :=
    .done [] [] widenedTask _
  have completes : Completes labelledPlan
      (Result.ofGroups [widenedRoot.group labelledPlan, widenedTask.group labelledPlan]) :=
    ⟨labelledRoot, rfl, .more first (.more second (.none _))⟩
  have found : (Result.ofGroups [widenedRoot.group labelledPlan,
      widenedTask.group labelledPlan]).group? (widenedRoot.group labelledPlan).id =
        some (widenedRoot.group labelledPlan) := by
    refine Result.group?_of_unique List.mem_cons_self fun other given same => ?_
    rcases List.mem_cons.mp given with rfl | later
    · rfl
    · rw [List.mem_singleton.mp later] at same
      exact absurd same (Identity.ofComponents_ne_root _)
  have member := Result.mem_values_of_group? found
  exact ⟨runs, _, completes, _, member,
    narrowed _ completes _ member labelledRoot rfl (List.cons_ne_nil _ _)⟩

end Run

end PathQuery
