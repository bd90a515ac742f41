/-
This file says when every link that an item has a value for has a group of its own. The identity of
a task is made of the item and the node, so that two links from one item to one node lead to tasks
of the same identity; the group that is recorded last takes the place of the other. A run keeps a
group for every link exactly where no item has values for two links to the same node. The induction
goes along the tasks: at a task that has its identity for itself, the groups under its items are
there to be counted, and without a fork each of its further tasks has an identity for itself again.
-/

import PathQuery.Proofs.Evaluation
import PathQuery.Proofs.Joins

namespace PathQuery

namespace Run

variable {plan : Plan} {root : Plan.Node} {done : List Task}

/-! ### A group for every link -/

/-- No group of a result is lost. -/
structure OwnGroups (plan : Plan) (result : Result) : Prop where
  /-- Under every item there is one group for each link that it has a value for, at the target of
  the link and with the condition that the link sets. -/
  own : ∀ group ∈ result.groups.values, ∀ item ∈ group.items,
    ((result.childGroups item.id).map fun child => (child.node, child.link)).Perm
      ((plan.followed group.node item.record).map fun way =>
        (way.1.target, [.equals way.1.mapping.target way.2]))
  /-- There are no other groups besides that of the root. -/
  count : result.size = 1 + (result.groups.values.flatMap fun group =>
    group.items.flatMap fun item => plan.followed group.node item.record).length

theorem map_tasksOf (formed : plan.WellFormed) {task : Task} (arises : Arises plan task)
    (record : Record) :
    ((task.perform plan).tasksOf plan record).map (fun next => (next.node, next.link)) =
      (plan.followed task.node record).map fun way =>
        (way.1.target, [.equals way.1.mapping.target way.2]) := by
  obtain ⟨node, found, -⟩ := arises.node
  rw [Task.tasksOf_eq_followed found, List.map_filterMap, ← List.filterMap_eq_map]
  refine List.filterMap_congr fun way member => ?_
  obtain ⟨target, known⟩ :=
    formed.target_node (Plan.mem_linksFrom.mp (Plan.mem_followed.mp member).1).1
  rw [known, Option.map_some, Option.map_some, Function.comp_apply, ← (Plan.node?_some known).2]
  rfl

/-- Tasks spawn as many further tasks as there are links that the items of their groups have values
for. -/
theorem length_further (formed : plan.WellFormed) (arise : ∀ task ∈ done, Arises plan task) :
    (done.flatMap (Task.further plan)).length =
      ((done.map (Task.group plan)).flatMap fun group =>
        group.items.flatMap fun item => plan.followed group.node item.record).length := by
  have pairs : (done.flatMap (Task.further plan)).map (fun next => (next.node, next.link)) =
      ((done.map (Task.group plan)).flatMap fun group =>
        group.items.flatMap fun item => plan.followed group.node item.record).map
          fun way => (way.1.target, [.equals way.1.mapping.target way.2]) := by
    rw [List.map_flatMap, List.flatMap_map, List.map_flatMap]
    refine List.flatMap_congr fun task performed => ?_
    rw [Task.further, Outcome.tasks, List.map_flatMap, Task.group_items, List.flatMap_map,
      List.map_flatMap, Task.group_node]
    exact List.flatMap_congr fun record _ => map_tasksOf formed (arise task performed) record
  have lengths := congrArg List.length pairs
  rwa [List.length_map, List.length_map] at lengths

/-! ### Without forks -/

/-- Without forks no group is lost: all tasks that arise have their identities for themselves. -/
theorem ownGroups_of_forkless (formed : plan.WellFormed) (clear : Discerned plan) {result : Result}
    (completes : Completes plan result) : OwnGroups plan result := by
  obtain ⟨root, done, set, history, rfl⟩ := history_of_completes completes
  have held := history.accounted clear set
  have arise : ∀ task ∈ done, Arises plan task := held.arise
  constructor
  case own =>
    intro group member item given
    obtain ⟨task, performed, rfl⟩ := List.mem_map.mp (Result.mem_of_mem_values member)
    obtain ⟨record, brought, rfl⟩ := List.mem_map.mp given
    have arises := arise task performed
    have reordered := (childGroups_perm clear held.once (fun _ => held.mem_done_iff set) arises
      brought).1.map fun child => (child.node, child.link)
    rw [List.map_map] at reordered
    rw [Task.group_node]
    refine reordered.trans (List.Perm.of_eq ?_)
    rw [← map_tasksOf formed arises]
    exact List.map_congr_left fun next _ => by
      rw [Function.comp_apply, Task.group_node, Task.group_link]
  case count =>
    have ids : ((done.map (Task.group plan)).map (·.id)).Nodup :=
      nodup_group_ids clear held.once arise
    have every : done.length = (Task.ofRoot root :: done.flatMap (Task.further plan)).length :=
      history.perm.length_eq
    have values := (Result.values_ofGroups ids).flatMap_right fun group =>
      group.items.flatMap fun item => plan.followed group.node item.record
    rw [Result.size_ofGroups ids, List.length_map, every, List.length_cons,
      length_further formed arise, values.length_eq, Nat.add_comm]

/-! ### With a fork -/

theorem Arises.id_of_parent {task : Task} (arises : Arises plan task) {item : String}
    (under : task.parent = some item) : task.id = Identity.task item task.node := by
  cases arises with
  | root => cases under
  | further before spawned =>
    obtain ⟨_, _, _, _, follows⟩ := before.follows spawned
    rw [follows.eq] at under ⊢
    rw [← Option.some.inj under]
    rfl

/-- Tasks of the same identity start from the same item. -/
theorem Arises.parent_of_id (free : CollisionFree plan) {first second : Task}
    (arises : Arises plan first) (arisesToo : Arises plan second) (same : first.id = second.id) :
    first.parent = second.parent := by
  cases arises with
  | root =>
    cases arisesToo with
    | root => rfl
    | further before spawned =>
      obtain ⟨_, _, _, _, follows⟩ := before.follows spawned
      exact absurd same.symm (id_ne_root_of_follows follows)
  | further before spawned =>
    obtain ⟨_, _, _, _, follows⟩ := before.follows spawned
    cases arisesToo with
    | root => exact absurd same (id_ne_root_of_follows follows)
    | further beforeToo spawnedToo =>
      obtain ⟨_, _, _, _, followsToo⟩ := beforeToo.follows spawnedToo
      have items := (follow_injective free before beforeToo follows followsToo same).1
      rw [follows.eq, followsToo.eq]
      exact congrArg some items

/-- Whatever is lost, the groups under an item are those of different nodes. -/
theorem nodup_child_nodes (free : CollisionFree plan) (arise : ∀ task ∈ done, Arises plan task)
    (item : String) : (((Result.ofGroups (done.map (Task.group plan))).childGroups item).map
      (·.node)).Nodup := by
  have named : ∀ child ∈ (Result.ofGroups (done.map (Task.group plan))).childGroups item,
      child.id = Identity.task item child.node := by
    intro child member
    obtain ⟨found, other, given, same, under⟩ := Result.mem_childGroups.mp member
    obtain ⟨task, performed, rfl⟩ := List.mem_map.mp (Result.group?_some found).1
    obtain ⟨next, performedToo, rfl⟩ := List.mem_map.mp given
    rw [Task.group_id, Task.group_id] at same
    rw [Task.group_parent] at under
    have parents :=
      (arise task performed).parent_of_id free (arise next performedToo) same.symm
    rw [Task.group_id, Task.group_node]
    exact (arise task performed).id_of_parent (parents.trans under)
  refine List.pairwise_map.mpr
    ((Result.filterMap_group?_ascending (done.map (Task.group plan)) _).imp_of_mem ?_)
  intro first second member memberToo less same
  rw [named first member, named second memberToo, same] at less
  exact String.lt_irrefl _ less

/-- Where a task has its identity for itself, and the groups under its items are complete, none of
its records leads to one node twice. -/
theorem OwnGroups.forklessAt (free : CollisionFree plan) (set : plan.root = .ok root)
    (history : History plan root [] done)
    (owns : OwnGroups plan (Result.ofGroups (done.map (Task.group plan)))) {task : Task}
    (arises : Arises plan task) (sole : Sole plan task) : ForklessAt plan task := by
  intro record brought
  have recorded := Result.mem_values_of_group? (history.group?_of_sole set arises sole)
  have reordered := (owns.own _ recorded _ (List.mem_map.mpr ⟨record, brought, rfl⟩)).map Prod.fst
  rw [List.map_map, List.map_map, Task.group_node] at reordered
  exact reordered.nodup_iff.mp (nodup_child_nodes free (history.arise set) _)

theorem OwnGroups.forkless (distinct : DistinctRecords plan) (free : CollisionFree plan)
    {result : Result} (completes : Completes plan result) (owns : OwnGroups plan result) :
    Forkless plan := by
  obtain ⟨root, done, set, history, rfl⟩ := history_of_completes completes
  have sole : ∀ task, Arises plan task → Sole plan task := by
    intro task arises
    induction arises with
    | root alsoSet => exact .root alsoSet
    | further before spawned inductionHypothesis =>
      exact inductionHypothesis.further distinct free before
        (owns.forklessAt free set history before inductionHypothesis) spawned
  exact fun task arises => owns.forklessAt free set history arises (sole task arises)

/-! ### No group is lost exactly without forks -/

/-- In a run of a plan, every link that an item has a value for has a group of its own exactly where
no item has values for two links to the same node. -/
theorem ownGroups_iff_forkless (built : plan.Built) (distinct : DistinctRecords plan)
    (free : CollisionFree plan) {result : Result} (completes : Completes plan result) :
    OwnGroups plan result ↔ Forkless plan := by
  constructor
  · exact fun owns => owns.forkless distinct free completes
  · exact fun forkless =>
      ownGroups_of_forkless built.wellFormed ⟨forkless, distinct, free⟩ completes

/-! ### Two links from one node to another -/

/-- What a memory brings for a node is told apart as it is on the shelves. -/
theorem keys_sublist {task : Task} {node : Plan.Node} {memory : Reader.Memory}
    (found : plan.node? task.node = some node) (bound : node.spec.reader = memory.reader) :
    ((task.perform plan).records.map fun record => (record.profile, record.identifier)).Sublist
      ((node.shelved memory).map fun record => (record.profile, record.identifier)) := by
  obtain ⟨origins, held, brought, -⟩ := memory.fetch_parts (task.request plan node)
  rw [Task.perform_of_node found, bound, brought, List.map_map]
  exact held.map _

/-- A memory with one record to start from and one for each of two attributes to join. -/
def twoEnds : Reader.Memory :=
  (((Reader.Memory.empty "mem" ["main"]).store "main" "t1"
    [("id", "1"), ("a", "x"), ("b", "y")]).store "main" "t2" [("id", "20"), ("a", "x")]).store
    "main" "t2" [("id", "21"), ("b", "y")]

/-- A plan whose root is linked to one other node, once for each of some mappings. -/
def linked (mappings : List Mapping) : Plan where
  nodes := [⟨"ROOT", ⟨⟨"mem", "t1"⟩, ["main"], [], [], twoEnds.reader⟩⟩,
    ⟨"n-1", ⟨⟨"mem", "t2"⟩, ["main"], [], [], twoEnds.reader⟩⟩]
  links := mappings.map fun mapping => ⟨"ROOT", "n-1", mapping⟩

theorem linked_built (mappings : List Mapping) : (linked mappings).Built := by
  induction mappings using List.reverseRecOn with
  | nil =>
    have root : Plan.Built ⟨[⟨"ROOT", ⟨⟨"mem", "t1"⟩, ["main"], [], [], twoEnds.reader⟩⟩], []⟩ :=
      .setRoot .empty rfl
    exact .addNode root rfl
  | append_singleton mappings mapping inductionHypothesis =>
    have leaf : ∀ link ∈ (linked mappings).links, link.source ≠ "n-1" := by
      intro link member
      obtain ⟨_, -, rfl⟩ := List.mem_map.mp member
      exact (by decide : "ROOT" ≠ "n-1")
    have added := Plan.addLink_ok_of_leaf "ROOT" "n-1" mapping rfl rfl (by decide) leaf
    have whole : (linked mappings).links ++ [⟨"ROOT", "n-1", mapping⟩] =
        (linked (mappings ++ [mapping])).links := by
      rw [linked, linked, List.map_append, List.map_singleton]
    rw [whole] at added
    exact .addLink inductionHypothesis added

theorem linked_root (mappings : List Mapping) :
    (linked mappings).root = .ok ⟨"ROOT", ⟨⟨"mem", "t1"⟩, ["main"], [], [], twoEnds.reader⟩⟩ := rfl

def linkedTask : Task := ⟨"ROOT", "ROOT", ⟨"mem", "t1"⟩, [], [], none⟩

theorem linked_item {mappings : List Mapping} {record : Record}
    (brought : record ∈ (linkedTask.perform (linked mappings)).records) :
    (linkedTask.perform (linked mappings)).itemId record = Identity.item "ROOT" "main" "1" := by
  have records : (linkedTask.perform (linked mappings)).records =
      [⟨"main", "1", [("id", "1"), ("a", "x"), ("b", "y")]⟩] := rfl
  rw [records] at brought
  rw [List.mem_singleton.mp brought]
  rfl

theorem linked_follows {mappings : List Mapping} {before task : Task} {record : Record}
    {link : Plan.Link} {target : Plan.Node} {value : String}
    (follows : Task.Follows (linked mappings) before record link target value task) :
    before.node = "ROOT" ∧ target.id = "n-1" := by
  obtain ⟨member, starts⟩ := Plan.mem_linksFrom.mp follows.leaves
  obtain ⟨mapping, -, rfl⟩ := List.mem_map.mp member
  exact ⟨starts.symm, (Plan.node?_some follows.known).2⟩

/-- The tasks that arise are the root task and those that start from its one item. -/
theorem linked_arises {mappings : List Mapping} {task : Task}
    (arises : Arises (linked mappings) task) : task = linkedTask ∨
      task.node = "n-1" ∧ task.id = Identity.task (Identity.item "ROOT" "main" "1") "n-1" := by
  induction arises with
  | root set =>
    cases set
    exact .inl rfl
  | further before spawned inductionHypothesis =>
    obtain ⟨record, link, target, value, follows⟩ := before.follows spawned
    obtain ⟨starts, goal⟩ := linked_follows follows
    rcases inductionHypothesis with rfl | ⟨elsewhere, -⟩
    · rw [follows.eq, Task.follow, goal, linked_item follows.brought]
      exact .inr ⟨rfl, rfl⟩
    · exact absurd (starts.symm.trans elsewhere) (by decide)

/-- The one record at the root and the two at the other node. -/
def linkedKeys (node : String) : List (String × String) :=
  if node = "ROOT" then [("main", "1")] else [("main", "20"), ("main", "21")]

theorem linked_keys {mappings : List Mapping} {task : Task}
    (arises : Arises (linked mappings) task) :
    ((task.perform (linked mappings)).records.map fun record =>
      (record.profile, record.identifier)).Sublist (linkedKeys task.node) := by
  have found : ∃ node, (linked mappings).node? task.node = some node ∧
      node.spec.reader = twoEnds.reader ∧
      ((node.shelved twoEnds).map fun record => (record.profile, record.identifier)) =
        linkedKeys task.node := by
    rcases linked_arises arises with rfl | ⟨node, -⟩
    · exact ⟨_, rfl, rfl, by decide⟩
    · rw [node]
      exact ⟨_, rfl, rfl, by decide⟩
  obtain ⟨node, known, bound, keys⟩ := found
  exact keys ▸ keys_sublist known bound

theorem linked_distinctRecords (mappings : List Mapping) : DistinctRecords (linked mappings) := by
  intro task arises
  refine (linked_keys arises).nodup ?_
  unfold linkedKeys
  split <;> decide

/-- What is digested: the root item, the tasks for it, which share their components, and the items
that they find. -/
def linkedComponents : List (List String) :=
  let task := Identity.task (Identity.item "ROOT" "main" "1") "n-1"
  [Identity.itemComponents "ROOT" "main" "1",
    Identity.taskComponents (Identity.item "ROOT" "main" "1") "n-1",
    Identity.itemComponents task "main" "20", Identity.itemComponents task "main" "21"]

theorem linked_digested {mappings : List Mapping} {components : List String}
    (digested : Digested (linked mappings) components) : components ∈ linkedComponents := by
  cases digested with
  | @item task record arises brought =>
    have key : (record.profile, record.identifier) ∈ linkedKeys task.node :=
      (linked_keys arises).subset (List.mem_map.mpr ⟨record, brought, rfl⟩)
    obtain ⟨profile, identifier, properties⟩ := record
    rcases linked_arises arises with rfl | ⟨node, id⟩
    · cases List.mem_singleton.mp key
      exact List.mem_cons_self
    · rw [id]
      rw [node] at key
      rcases List.mem_cons.mp key with same | later
      · cases same
        exact List.mem_of_getElem? (i := 2) rfl
      · cases List.mem_singleton.mp later
        exact List.mem_of_getElem? (i := 3) rfl
  | task arises follows =>
    obtain ⟨starts, goal⟩ := linked_follows follows
    rcases linked_arises arises with rfl | ⟨elsewhere, -⟩
    · rw [goal, linked_item follows.brought]
      exact List.mem_of_getElem? (i := 1) rfl
    · exact absurd (starts.symm.trans elsewhere) (by decide)

theorem linked_collisionFree (mappings : List Mapping) : CollisionFree (linked mappings) := by
  have different : (linkedComponents.map Identity.ofComponents).Nodup := by decide +kernel
  exact fun _ _ digested digestedToo same =>
    List.inj_on_of_nodup_map different (linked_digested digested) (linked_digested digestedToo) same

/-- With one link no group is lost. -/
theorem ownGroups_iff_forkless_linked : ∃ result, Completes (linked [⟨"a", "a"⟩]) result ∧
    OwnGroups (linked [⟨"a", "a"⟩]) result := by
  have completes := completes_tasks (linked_built _).wellFormed (linked_root [⟨"a", "a"⟩])
  have single : (linked [⟨"a", "a"⟩]).edges.Nodup := List.nodup_singleton _
  exact ⟨_, completes, (ownGroups_iff_forkless (linked_built _) (linked_distinctRecords _)
    (linked_collisionFree _) completes).mpr
      fun task _ record _ => Plan.nodup_followed single task.node record⟩

/-- With two links, both of which the one item of the root has a value for, the group that follows
the second takes the place of the one that follows the first. -/
theorem linked_loses_group : (linked [⟨"a", "a"⟩, ⟨"b", "b"⟩]).Built ∧
    DistinctRecords (linked [⟨"a", "a"⟩, ⟨"b", "b"⟩]) ∧
    CollisionFree (linked [⟨"a", "a"⟩, ⟨"b", "b"⟩]) ∧
    ∃ result, (∀ machine size, Machine.Starts machine size →
        (linked [⟨"a", "a"⟩, ⟨"b", "b"⟩]).run machine size = .ok result) ∧
      Completes (linked [⟨"a", "a"⟩, ⟨"b", "b"⟩]) result ∧
      result.size = 2 ∧
      (result.childGroups (Identity.item "ROOT" "main" "1")).map (·.link) =
        [[.equals "b" "y"]] ∧
      ¬ OwnGroups (linked [⟨"a", "a"⟩, ⟨"b", "b"⟩]) result := by
  have evaluated : (((linked [⟨"a", "a"⟩, ⟨"b", "b"⟩]).run .unlimited 1).toOption.map
      fun result => (result.size,
        (result.childGroups (Identity.item "ROOT" "main" "1")).map (·.link))) =
      some (2, [[.equals "b" "y"]]) := by decide +kernel
  have starts : Machine.unlimited.Starts 1 := rfl
  obtain ⟨result, ran⟩ := run_ok (linked_root [⟨"a", "a"⟩, ⟨"b", "b"⟩]) starts
  have completes := completes_run (linked_built _).wellFormed ran
  obtain ⟨root, set, -, same⟩ := run_eq_ok_iff.mp ran
  rw [ran] at evaluated
  have found := Option.some.inj evaluated
  refine ⟨linked_built _, linked_distinctRecords _, linked_collisionFree _, result,
    fun machine size starts => run_eq_ok_iff.mpr ⟨root, set, starts, same⟩, completes,
    congrArg Prod.fst found, congrArg Prod.snd found, fun owns => ?_⟩
  have forkless := owns.forkless (linked_distinctRecords _) (linked_collisionFree _) completes
  have twice := forkless _ (.root (linked_root _)) ⟨"main", "1", [("id", "1"), ("a", "x"),
    ("b", "y")]⟩ List.mem_cons_self
  exact absurd twice (by decide)

end Run

end PathQuery
