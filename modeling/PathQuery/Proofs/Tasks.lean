/-
This file says which tasks arise in the runs of a plan. The root task arises, and so does every
task that follows a link from a record of a task that arises; which tasks these are does not
depend on the order of a run. Where different components get different identities, the identity
of a task tells the item it starts from and the node it asks, and that of an item its group and its
record. No two tasks that arise share one then, unless a record is followed to one node along two
links: the link is not among the components.
-/

import PathQuery.Proofs.Construction
import PathQuery.Run.Schedule

namespace PathQuery

/-! ### Identities -/

namespace Identity

/-- An identity made of components is not that of the root: it is spelled in hexadecimal digits. -/
theorem ofComponents_ne_root (components : List String) : ofComponents components ≠ root := by
  intro same
  have letters := congrArg (fun text => text.toList.head?) same
  rw [ofComponents, String.toList_ofList] at letters
  cases bytes : (Digest.digest (stream components)).take keptBytes with
  | nil =>
    rw [bytes] at letters
    cases letters
  | cons byte rest =>
    rw [bytes, List.flatMap_cons, hexDigits] at letters
    have digit : Nat.digitChar (byte.toNat / 16) = 'R' := Option.some.inj letters
    have small : byte.toNat / 16 < 16 := by
      have bound := byte.toNat_lt
      omega
    have never : ∀ number < 16, Nat.digitChar number ≠ 'R' := by decide
    exact never _ small digit

end Identity

/-! ### What a task asks and what comes of it -/

namespace Task

/-- What a task asks of the reader of its node. -/
def request (plan : Plan) (node : Plan.Node) (task : Task) : Request :=
  ⟨node.spec.kind.name, node.spec.profiles, plan.fetchAttrs node.id, task.conditions⟩

/-- A task brings what the reader of its node answers. -/
theorem perform_of_node {plan : Plan} {task : Task} {node : Plan.Node}
    (found : plan.node? task.node = some node) :
    task.perform plan = ⟨task, (node.spec.reader.fetch (task.request plan node)).parts.1,
      (node.spec.reader.fetch (task.request plan node)).parts.2⟩ := by
  rw [perform, found]
  rfl

@[simp] theorem perform_task (plan : Plan) (task : Task) : (task.perform plan).task = task := by
  rw [perform]
  split <;> rfl

/-- The group that a task leaves. -/
def group (plan : Plan) (task : Task) : Result.Group := (task.perform plan).group plan

/-- The tasks that a task leads to. -/
def further (plan : Plan) (task : Task) : List Task := (task.perform plan).tasks plan

@[simp] theorem group_id (plan : Plan) (task : Task) : (task.group plan).id = task.id := by
  rw [group, Outcome.group, perform_task]

@[simp] theorem group_parent (plan : Plan) (task : Task) :
    (task.group plan).parent = task.parent := by
  rw [group, Outcome.group, perform_task]

@[simp] theorem group_node (plan : Plan) (task : Task) : (task.group plan).node = task.node := by
  rw [group, Outcome.group, perform_task]

@[simp] theorem group_link (plan : Plan) (task : Task) : (task.group plan).link = task.link := by
  rw [group, Outcome.group, perform_task]

theorem group_items (plan : Plan) (task : Task) :
    (task.group plan).items =
      (task.perform plan).records.map ((task.perform plan).item plan) := rfl

/-- A task starts at an item and a node where it follows a link from a record of another task. -/
structure Follows (plan : Plan) (before : Task) (record : Record) (link : Plan.Link)
    (target : Plan.Node) (value : String) (task : Task) : Prop where
  brought : record ∈ (before.perform plan).records
  leaves : link ∈ plan.linksFrom before.node
  known : plan.node? link.target = some target
  held : record.value? link.mapping.source = some value
  eq : task = follow ((before.perform plan).itemId record) link target value

/-- A task that follows a link asks a node that the node before leads to. -/
theorem Follows.leads {plan : Plan} {before task : Task} {record : Record} {link : Plan.Link}
    {target : Plan.Node} {value : String}
    (follows : Follows plan before record link target value task) :
    Graph.Leads plan.edges before.node task.node := by
  obtain ⟨member, starts⟩ := Plan.mem_linksFrom.mp follows.leaves
  have goal : task.node = link.target := by
    rw [follows.eq]
    exact (Plan.node?_some follows.known).2
  rw [goal, ← starts]
  exact Plan.leads_of_mem member

end Task

namespace Outcome

/-- A link is followed where its target is a node and the record has a value for its source
attribute. -/
theorem toOption_pursue {plan : Plan} {item : String} {record : Record} {link : Plan.Link}
    {task : Task} : (pursue plan item record link).toOption = some task ↔
      ∃ target value, plan.node? link.target = some target ∧
        record.value? link.mapping.source = some value ∧
        task = Task.follow item link target value := by
  unfold pursue
  cases plan.node? link.target with
  | none =>
    constructor
    · intro same
      cases same
    · rintro ⟨_, _, same, -⟩
      cases same
  | some target =>
    cases record.value? link.mapping.source with
    | none =>
      constructor
      · intro same
        cases same
      · rintro ⟨_, _, -, same, -⟩
        cases same
    | some value =>
      constructor
      · intro same
        cases same
        exact ⟨target, value, rfl, rfl, rfl⟩
      · rintro ⟨_, _, same, alsoSame, rfl⟩
        cases same
        cases alsoSame
        rfl

end Outcome

namespace Task

theorem links_perform {plan : Plan} {task : Task} {node : Plan.Node}
    (found : plan.node? task.node = some node) :
    (task.perform plan).links plan = (plan.linksFrom task.node, none) := by
  rw [Outcome.links, perform_task, Plan.linksOf, if_pos (Plan.contains_of_node? found)]

/-- A task starts from a record along a link exactly where the link can be followed. -/
theorem toOption_pursue_eq_some {plan : Plan} {before task : Task} {record : Record}
    {link : Plan.Link} (brought : record ∈ (before.perform plan).records)
    (leaves : link ∈ plan.linksFrom before.node) :
    (Outcome.pursue plan ((before.perform plan).itemId record) record link).toOption = some task ↔
      ∃ target value, Follows plan before record link target value task := by
  rw [Outcome.toOption_pursue]
  constructor
  · rintro ⟨target, value, known, held, same⟩
    exact ⟨target, value, brought, leaves, known, held, same⟩
  · rintro ⟨target, value, -, -, known, held, same⟩
    exact ⟨target, value, known, held, same⟩

theorem mem_tasksOf {plan : Plan} {before task : Task} {node : Plan.Node} {record : Record}
    (found : plan.node? before.node = some node)
    (brought : record ∈ (before.perform plan).records) :
    task ∈ (before.perform plan).tasksOf plan record ↔
      ∃ link target value, Follows plan before record link target value task := by
  rw [Outcome.tasksOf, Outcome.pursuits, links_perform found, List.filterMap_map,
    List.mem_filterMap]
  constructor
  · rintro ⟨link, leaves, followed⟩
    exact ⟨link, (toOption_pursue_eq_some brought leaves).mp followed⟩
  · rintro ⟨link, target, value, follows⟩
    exact ⟨link, follows.leaves,
      (toOption_pursue_eq_some brought follows.leaves).mpr ⟨target, value, follows⟩⟩

/-- The further tasks of a task at a node are those that follow a link from one of its records. -/
theorem mem_further {plan : Plan} {before task : Task} {node : Plan.Node}
    (found : plan.node? before.node = some node) :
    task ∈ before.further plan ↔ ∃ record link target value,
      Follows plan before record link target value task := by
  rw [further, Outcome.tasks, List.mem_flatMap]
  constructor
  · rintro ⟨record, brought, spawned⟩
    exact ⟨record, (mem_tasksOf found brought).mp spawned⟩
  · rintro ⟨record, link, target, value, follows⟩
    exact ⟨record, follows.brought,
      (mem_tasksOf found follows.brought).mpr ⟨link, target, value, follows⟩⟩

end Task

/-! ### The links that a record is followed along -/

namespace Plan

/-- The links of a node that a record has a value for, each with the value. -/
def followed (plan : Plan) (node : String) (record : Record) : List (Link × String) :=
  (plan.linksFrom node).filterMap fun link =>
    (record.value? link.mapping.source).map fun value => (link, value)

theorem mem_followed {plan : Plan} {node : String} {record : Record} {link : Link}
    {value : String} : (link, value) ∈ plan.followed node record ↔
      link ∈ plan.linksFrom node ∧ record.value? link.mapping.source = some value := by
  rw [followed, List.mem_filterMap]
  constructor
  · rintro ⟨other, leaves, same⟩
    obtain ⟨content, held, same⟩ := Option.map_eq_some_iff.mp same
    cases same
    exact ⟨leaves, held⟩
  · rintro ⟨leaves, held⟩
    exact ⟨link, leaves, by rw [held]; rfl⟩

/-- Where no two links join the same nodes, no two of the links followed have the same target. -/
theorem nodup_followed {plan : Plan} (single : plan.edges.Nodup) (node : String)
    (record : Record) : ((plan.followed node record).map (·.1.target)).Nodup := by
  have links : (plan.linksFrom node).Nodup := (List.Nodup.of_map _ single).filter _
  refine List.pairwise_map.mpr (List.pairwise_filterMap.mpr (links.imp_of_mem ?_))
  intro link way member memberToo different first found second foundToo same
  obtain ⟨_, -, rfl⟩ := Option.map_eq_some_iff.mp found
  obtain ⟨_, -, rfl⟩ := Option.map_eq_some_iff.mp foundToo
  obtain ⟨given, starts⟩ := mem_linksFrom.mp member
  obtain ⟨givenToo, startsToo⟩ := mem_linksFrom.mp memberToo
  exact different (List.inj_on_of_nodup_map single given givenToo
    (Prod.ext (starts.trans startsToo.symm) same))

end Plan

/-- The further tasks for a record follow its links, each to the node that it leads to. -/
theorem Task.tasksOf_eq_followed {plan : Plan} {task : Task} {node : Plan.Node}
    (found : plan.node? task.node = some node) (record : Record) :
    (task.perform plan).tasksOf plan record =
      (plan.followed task.node record).filterMap fun way =>
        (plan.node? way.1.target).map fun target =>
          follow ((task.perform plan).itemId record) way.1 target way.2 := by
  rw [Outcome.tasksOf, Outcome.pursuits, links_perform found, Plan.followed, List.filterMap_map,
    List.filterMap_filterMap]
  refine List.filterMap_congr fun link _ => ?_
  rw [Function.comp_apply, Outcome.pursue]
  cases record.value? link.mapping.source with
  | none => cases plan.node? link.target <;> rfl
  | some value =>
    rw [Option.map_some, Option.bind_some]
    cases plan.node? link.target <;> rfl

/-! ### The tasks that arise -/

namespace Run

/-- The tasks that arise in runs of a plan. -/
inductive Arises (plan : Plan) : Task → Prop where
  | root {root : Plan.Node} : plan.root = .ok root → Arises plan (Task.ofRoot root)
  | further {before task : Task} :
    Arises plan before → task ∈ before.further plan → Arises plan task

/-- The lists of components that are digested in runs of a plan: those of the items that tasks find,
and those of the tasks that follow links from them. -/
inductive Digested (plan : Plan) : List String → Prop where
  | item {task : Task} {record : Record} :
    Arises plan task → record ∈ (task.perform plan).records →
    Digested plan (Identity.itemComponents task.id record.profile record.identifier)
  | task {before task : Task} {record : Record} {link : Plan.Link} {target : Plan.Node}
    {value : String} :
    Arises plan before → Task.Follows plan before record link target value task →
    Digested plan (Identity.taskComponents ((before.perform plan).itemId record) target.id)

/-- Different components that are digested in runs of a plan get different identities. -/
def CollisionFree (plan : Plan) : Prop :=
  ∀ first second, Digested plan first → Digested plan second →
    Identity.ofComponents first = Identity.ofComponents second → first = second

/-- No task that arises brings two records of the same profile and identifier. -/
def DistinctRecords (plan : Plan) : Prop :=
  ∀ task, Arises plan task →
    ((task.perform plan).records.map fun record => (record.profile, record.identifier)).Nodup

/-- No record that a task brings has values for two links to one node. -/
def ForklessAt (plan : Plan) (task : Task) : Prop :=
  ∀ record ∈ (task.perform plan).records,
    ((plan.followed task.node record).map (·.1.target)).Nodup

/-- No task that arises brings a record with values for two links to one node. -/
def Forkless (plan : Plan) : Prop :=
  ∀ task, Arises plan task → ForklessAt plan task

/-- What tells the tasks that arise apart, and their items. -/
structure Discerned (plan : Plan) : Prop where
  forkless : Forkless plan
  distinct : DistinctRecords plan
  free : CollisionFree plan

/-- What tells them apart whatever the records have values for. -/
structure Unambiguous (plan : Plan) : Prop where
  /-- No two links join the same nodes. -/
  single : plan.edges.Nodup
  distinct : DistinctRecords plan
  free : CollisionFree plan

theorem Unambiguous.discerned {plan : Plan} (clear : Unambiguous plan) : Discerned plan where
  forkless task _ record _ := Plan.nodup_followed clear.single task.node record
  distinct := clear.distinct
  free := clear.free

instance {plan : Plan} : Coe (Unambiguous plan) (Discerned plan) := ⟨Unambiguous.discerned⟩

variable {plan : Plan}

/-- A task that arises asks a node of the plan, under the conditions of that node. -/
theorem Arises.node {task : Task} (arises : Arises plan task) :
    ∃ node, plan.node? task.node = some node ∧ task.kind = node.spec.kind ∧
      task.base = node.spec.conditions := by
  induction arises with
  | @root root set => exact ⟨root, Plan.node?_self (Plan.root_ok set), rfl, rfl⟩
  | further _ spawned inductionHypothesis =>
    obtain ⟨node, found, -⟩ := inductionHypothesis
    obtain ⟨record, link, target, value, follows⟩ := (Task.mem_further found).mp spawned
    rw [follows.eq]
    exact ⟨target, Plan.node?_self follows.known, rfl, rfl⟩

theorem Arises.follows {before task : Task} (arises : Arises plan before)
    (spawned : task ∈ before.further plan) : ∃ record link target value,
      Task.Follows plan before record link target value task := by
  obtain ⟨node, found, -⟩ := arises.node
  exact (Task.mem_further found).mp spawned

theorem Arises.of_follows {before task : Task} {record : Record} {link : Plan.Link}
    {target : Plan.Node} {value : String} (arises : Arises plan before)
    (follows : Task.Follows plan before record link target value task) : Arises plan task := by
  obtain ⟨node, found, -⟩ := arises.node
  exact .further arises ((Task.mem_further found).mpr ⟨record, link, target, value, follows⟩)

/-! ### Lists of all tasks -/

/-- A list holds the root task, and with every task the further ones. -/
structure Closed (plan : Plan) (tasks : List Task) : Prop where
  rooted : ∀ root, plan.root = .ok root → Task.ofRoot root ∈ tasks
  further : ∀ task ∈ tasks, ∀ next ∈ task.further plan, next ∈ tasks

/-- The lists of components that a task has digested: those of its items, and those of the tasks
that follow links from them. -/
def digestedBy (plan : Plan) (task : Task) : List (List String) :=
  (task.perform plan).records.flatMap fun record =>
    Identity.itemComponents task.id record.profile record.identifier ::
      (plan.followed task.node record).map fun way =>
        Identity.taskComponents ((task.perform plan).itemId record) way.1.target

theorem mem_digestedBy {components : List String} (digested : Digested plan components) :
    ∃ task, Arises plan task ∧ components ∈ digestedBy plan task := by
  cases digested with
  | @item task record arises brought =>
    exact ⟨task, arises, List.mem_flatMap.mpr ⟨record, brought, List.mem_cons_self⟩⟩
  | @task before task record link target value arises follows =>
    refine ⟨before, arises, List.mem_flatMap.mpr ⟨record, follows.brought,
      List.mem_cons_of_mem _ (List.mem_map.mpr ⟨(link, value),
        Plan.mem_followed.mpr ⟨follows.leaves, follows.held⟩, ?_⟩)⟩⟩
    rw [(Plan.node?_some follows.known).2]

namespace Closed

theorem of_subset {root : Plan.Node} (set : plan.root = .ok root) {tasks : List Task}
    (holds : Task.ofRoot root :: tasks.flatMap (Task.further plan) ⊆ tasks) :
    Closed plan tasks := by
  constructor
  · intro other alsoSet
    cases set.symm.trans alsoSet
    exact holds List.mem_cons_self
  · intro task member next spawned
    exact holds (List.mem_cons_of_mem _ (List.mem_flatMap.mpr ⟨task, member, spawned⟩))

theorem of_eq {root : Plan.Node} (set : plan.root = .ok root) {tasks : List Task}
    (all : Task.ofRoot root :: tasks.flatMap (Task.further plan) = tasks) : Closed plan tasks :=
  .of_subset set fun _ member => all ▸ member

variable {tasks : List Task} (closed : Closed plan tasks)

include closed

/-- All tasks that arise are in the list. -/
theorem mem {task : Task} (arises : Arises plan task) : task ∈ tasks := by
  induction arises with
  | root set => exact closed.rooted _ set
  | further _ spawned inductionHypothesis => exact closed.further _ inductionHypothesis _ spawned

theorem distinctRecords (distinct : ∀ task ∈ tasks,
    ((task.perform plan).records.map fun record => (record.profile, record.identifier)).Nodup) :
    DistinctRecords plan :=
  fun task arises => distinct task (closed.mem arises)

/-- Where the identities of all that is digested are different, different components have different
identities. -/
theorem collisionFree
    (different : ((tasks.flatMap (digestedBy plan)).map Identity.ofComponents).Nodup) :
    CollisionFree plan := by
  have among : ∀ {components}, Digested plan components →
      components ∈ tasks.flatMap (digestedBy plan) := by
    intro components digested
    obtain ⟨task, arises, member⟩ := mem_digestedBy digested
    exact List.mem_flatMap.mpr ⟨task, closed.mem arises, member⟩
  exact fun _ _ digested digestedToo same =>
    List.inj_on_of_nodup_map different (among digested) (among digestedToo) same

end Closed

/-! ### Identities of tasks that arise -/

/-- A task that follows a link is not the root task. -/
theorem id_ne_root_of_follows {before task : Task} {record : Record} {link : Plan.Link}
    {target : Plan.Node} {value : String}
    (follows : Task.Follows plan before record link target value task) :
    task.id ≠ Identity.root := by
  rw [follows.eq]
  exact Identity.ofComponents_ne_root _

/-- Items of the same identity belong to groups of the same identity, and so do their records. -/
theorem item_injective (free : CollisionFree plan) {first second : Task} {one other : Record}
    (arises : Arises plan first) (arisesToo : Arises plan second)
    (member : one ∈ (first.perform plan).records)
    (memberToo : other ∈ (second.perform plan).records)
    (same : (first.perform plan).itemId one = (second.perform plan).itemId other) :
    first.id = second.id ∧ (one.profile, one.identifier) = (other.profile, other.identifier) := by
  rw [Outcome.itemId, Outcome.itemId, Task.perform_task, Task.perform_task] at same
  have components := free _ _ (.item arises member) (.item arisesToo memberToo) same
  simp only [Identity.itemComponents, List.cons.injEq, true_and, and_true] at components
  exact ⟨components.1, Prod.ext components.2.1 components.2.2⟩

/-- Tasks of the same identity follow links from items of the same identity to the same node. -/
theorem follow_injective (free : CollisionFree plan) {first second one other : Task}
    {record held : Record} {link way : Plan.Link} {target goal : Plan.Node} {value content : String}
    (arises : Arises plan first) (arisesToo : Arises plan second)
    (follows : Task.Follows plan first record link target value one)
    (followsToo : Task.Follows plan second held way goal content other)
    (same : one.id = other.id) :
    (first.perform plan).itemId record = (second.perform plan).itemId held ∧
      link.target = way.target := by
  rw [follows.eq, followsToo.eq] at same
  have components := free _ _ (.task arises follows) (.task arisesToo followsToo) same
  simp only [Identity.taskComponents, List.cons.injEq, true_and, and_true] at components
  refine ⟨components.1, ?_⟩
  rw [← (Plan.node?_some follows.known).2, ← (Plan.node?_some followsToo.known).2]
  exact components.2

theorem record_injective (distinct : DistinctRecords plan) {task : Task} {one other : Record}
    (arises : Arises plan task) (member : one ∈ (task.perform plan).records)
    (memberToo : other ∈ (task.perform plan).records)
    (same : (one.profile, one.identifier) = (other.profile, other.identifier)) : one = other :=
  List.inj_on_of_nodup_map (distinct task arises) member memberToo same

/-- No other task that arises has the identity of a task. -/
def Sole (plan : Plan) (task : Task) : Prop :=
  ∀ other, Arises plan other → other.id = task.id → other = task

theorem Sole.root {root : Plan.Node} (set : plan.root = .ok root) :
    Sole plan (Task.ofRoot root) := by
  intro other arises same
  cases arises with
  | root alsoSet =>
    cases set.symm.trans alsoSet
    rfl
  | further before spawned =>
    obtain ⟨_, _, _, _, follows⟩ := before.follows spawned
    exact absurd same (id_ne_root_of_follows follows)

/-- The identity of a further task settles the item and the target. Where it settles the task
before, it settles the record, and where the record leads to the target once, the link as well. -/
theorem Sole.further (distinct : DistinctRecords plan) (free : CollisionFree plan)
    {before task : Task} (sole : Sole plan before) (arises : Arises plan before)
    (forkless : ForklessAt plan before) (spawned : task ∈ before.further plan) :
    Sole plan task := by
  obtain ⟨record, link, target, value, follows⟩ := arises.follows spawned
  intro other arisesToo same
  cases arisesToo with
  | root => exact absurd same.symm (id_ne_root_of_follows follows)
  | @further earlier _ arisesToo spawnedToo =>
    obtain ⟨held, way, goal, content, followsToo⟩ := arisesToo.follows spawnedToo
    obtain ⟨items, targets⟩ := follow_injective free arisesToo arises followsToo follows same
    obtain ⟨groups, records⟩ :=
      item_injective free arisesToo arises followsToo.brought follows.brought items
    have sameBefore : earlier = before := sole earlier arisesToo groups
    subst sameBefore
    have sameRecord : held = record :=
      record_injective distinct arises followsToo.brought follows.brought records
    subst sameRecord
    have sameWay : (way, content) = (link, value) :=
      List.inj_on_of_nodup_map (forkless held follows.brought)
        (Plan.mem_followed.mpr ⟨followsToo.leaves, followsToo.held⟩)
        (Plan.mem_followed.mpr ⟨follows.leaves, follows.held⟩) targets
    cases sameWay
    cases follows.known.symm.trans followsToo.known
    exact followsToo.eq.trans follows.eq.symm

theorem Arises.sole (clear : Discerned plan) {task : Task} (arises : Arises plan task) :
    Sole plan task := by
  induction arises with
  | root set => exact .root set
  | further before spawned inductionHypothesis =>
    exact inductionHypothesis.further clear.distinct clear.free before (clear.forkless _ before)
      spawned

/-- No two tasks that arise share an identity. -/
theorem Arises.id_injective (clear : Discerned plan) {first second : Task}
    (arises : Arises plan first) (arisesToo : Arises plan second) (same : first.id = second.id) :
    first = second :=
  arisesToo.sole clear first arises same

end Run

end PathQuery
