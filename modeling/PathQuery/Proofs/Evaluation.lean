/-
This file proves that running a plan and laying out the result is evaluating the plan. The
evaluation is defined by recursion over the plan alone: it fetches a node, and under every record
it evaluates the targets of the links that the record has a value for. Neither tasks, nor an
order of work, nor a result to look groups up in take part in it. The report on any run is this
tree, and it tells what every task that arises has fetched exactly once.
-/

import PathQuery.Proofs.Histories
import PathQuery.Result.Report

namespace PathQuery

/-! ### The evaluation of a plan -/

namespace Report

/-- Reports on groups in the order of the identities they come with. -/
def inOrder (groups : List (String × Group)) : List Group :=
  (groups.mergeSort fun one other => one.1 ≤ other.1).map (·.2)

@[simp] theorem inOrder_nil : inOrder [] = [] := by
  rw [inOrder, List.mergeSort_nil, List.map_nil]

@[simp] theorem inOrder_singleton (entry : String × Group) : inOrder [entry] = [entry.2] := by
  rw [inOrder, List.mergeSort_singleton, List.map_singleton]

theorem inOrder_perm (groups : List (String × Group)) :
    (inOrder groups).Perm (groups.map (·.2)) :=
  (List.mergeSort_perm groups _).map _

end Report

namespace Plan

/-- What the reader of a node answers, under the conditions of the node and further ones. -/
def fetched (plan : Plan) (node : Node) (further : List Condition) :
    List Record × Option String :=
  (node.spec.reader.fetch ⟨node.spec.kind.name, node.spec.profiles, plan.fetchAttrs node.id,
    node.spec.conditions ++ further⟩).parts

/-- The message for a link to a node, where a record has no value for the link. -/
def lack? (plan : Plan) (record : Record) (link : Link) : Option String :=
  match plan.node? link.target, record.value? link.mapping.source with
  | some target, none =>
    some ("attribute \"" ++ link.mapping.source ++ "\" is missing, cannot link to " ++
      target.spec.kind.text)
  | _, _ => none

/-- Where the links of a node lead a record to: the target of every link that the record has a value
for, and the condition that the link sets there. -/
def ways (plan : Plan) (node : Node) (record : Record) : List (Node × Condition) :=
  (plan.linksFrom node.id).filterMap fun link =>
    match plan.node? link.target, record.value? link.mapping.source with
    | some target, some value => some (target, .equals link.mapping.target value)
    | _, _ => none

theorem leads_of_mem_ways {plan : Plan} {node : Node} {record : Record} {way : Node × Condition}
    (member : way ∈ plan.ways node record) : Graph.Leads plan.edges node.id way.1.id := by
  obtain ⟨link, given, same⟩ := List.mem_filterMap.mp member
  obtain ⟨held, starts⟩ := mem_linksFrom.mp given
  split at same
  · rename_i target value found _
    cases same
    rw [(node?_some found).2, ← starts]
    exact leads_of_mem held
  · cases same

theorem node?_of_mem_ways {plan : Plan} {node : Node} {record : Record} {way : Node × Condition}
    (member : way ∈ plan.ways node record) : plan.node? way.1.id = some way.1 := by
  obtain ⟨link, -, same⟩ := List.mem_filterMap.mp member
  split at same
  · rename_i target value found _
    cases same
    exact node?_self found
  · cases same

/-- Evaluates a node as a group of a given identity, under further conditions. Following links ends,
and the recursion with it. -/
def evaluate (plan : Plan)
    (descends : WellFounded fun later earlier => Graph.Leads plan.edges earlier later)
    (node : Node) (id : String) (further : List Condition) : Report.Group :=
  .group ⟨some id, node.spec.kind.text, further.map Condition.text, none,
      (plan.fetched node further).2⟩
    ((plan.fetched node further).1.map fun record =>
      let item := Identity.item id record.profile record.identifier
      .item ⟨some item, some id, record.profile, record.properties, (plan.fetched node further).2,
          (plan.linksFrom node.id).filterMap (plan.lack? record)⟩
        (Report.inOrder ((plan.ways node record).attach.map fun ⟨way, _⟩ =>
          (Identity.task item way.1.id,
            plan.evaluate descends way.1 (Identity.task item way.1.id) [way.2]))))
termination_by descends.wrap node.id
decreasing_by
  exact leads_of_mem_ways ‹_›

/-- The recursion of the evaluation. -/
theorem evaluate_eq {plan : Plan}
    (descends : WellFounded fun later earlier => Graph.Leads plan.edges earlier later)
    (node : Node) (id : String) (further : List Condition) :
    plan.evaluate descends node id further =
      .group ⟨some id, node.spec.kind.text, further.map Condition.text, none,
        (plan.fetched node further).2⟩
      ((plan.fetched node further).1.map fun record =>
        .item ⟨some (Identity.item id record.profile record.identifier), some id, record.profile,
            record.properties, (plan.fetched node further).2,
            (plan.linksFrom node.id).filterMap (plan.lack? record)⟩
          (Report.inOrder ((plan.ways node record).map fun way =>
            let task := Identity.task (Identity.item id record.profile record.identifier) way.1.id
            (task, plan.evaluate descends way.1 task [way.2])))) := by
  rw [evaluate]
  simp only [List.map_attach_eq_pmap, List.pmap_eq_map]

end Plan

/-! ### The evaluation of a task -/

namespace Run

variable {plan : Plan} {task : Task} {node : Plan.Node}

theorem fetched_eq (arises : Arises plan task) (found : plan.node? task.node = some node) :
    plan.fetched node task.link = ((task.perform plan).records, (task.perform plan).error) := by
  obtain ⟨other, alsoFound, -, base⟩ := arises.node
  cases found.symm.trans alsoFound
  rw [Task.perform_of_node found, Task.request, Task.conditions, base]
  rfl

theorem tasksOf_eq (found : plan.node? task.node = some node) (record : Record) :
    (task.perform plan).tasksOf plan record = (plan.ways node record).map fun way =>
      ⟨Identity.task ((task.perform plan).itemId record) way.1.id, way.1.id, way.1.spec.kind,
        way.1.spec.conditions, [way.2], some ((task.perform plan).itemId record)⟩ := by
  rw [Outcome.tasksOf, Outcome.pursuits, Task.links_perform found, Plan.ways,
    List.filterMap_map, List.map_filterMap, (Plan.node?_some found).2]
  refine List.filterMap_congr fun link _ => ?_
  rw [Function.comp_apply, Outcome.pursue]
  cases plan.node? link.target with
  | none => rfl
  | some target =>
    cases record.value? link.mapping.source with
    | none => rfl
    | some value => rfl

theorem linkErrors_eq (formed : plan.WellFormed) (found : plan.node? task.node = some node)
    (record : Record) : (task.perform plan).linkErrors plan record =
      (plan.linksFrom node.id).filterMap (plan.lack? record) := by
  rw [Outcome.linkErrors, Outcome.pursuits, Task.links_perform found, List.filterMap_map,
    (Plan.node?_some found).2]
  refine List.filterMap_congr fun link member => ?_
  obtain ⟨target, known⟩ := formed.target_node (Plan.mem_linksFrom.mp member).1
  rw [Function.comp_apply, Outcome.pursue, Plan.lack?, known]
  cases record.value? link.mapping.source with
  | none => rfl
  | some value => rfl

/-- The evaluation of what a task asks. -/
def tree (plan : Plan)
    (descends : WellFounded fun later earlier => Graph.Leads plan.edges earlier later)
    (task : Task) : Report.Group :=
  match plan.node? task.node with
  | some node => plan.evaluate descends node task.id task.link
  | none => .group (Report.groupHead .debug (task.group plan)) []

/-- The evaluation of what the root task asks is that of the root. -/
theorem tree_root {root : Plan.Node}
    (descends : WellFounded fun later earlier => Graph.Leads plan.edges earlier later)
    (set : plan.root = .ok root) :
    tree plan descends (Task.ofRoot root) = plan.evaluate descends root Identity.root [] := by
  have found : plan.node? root.id = some root := Plan.node?_self (Plan.root_ok set)
  rw [tree]
  show (match plan.node? root.id with
    | some node => plan.evaluate descends node Identity.root []
    | none => _) = _
  rw [found]

/-- The evaluation of what a task asks lists its records in order, and under each of them the
evaluations of its further tasks for it. -/
theorem tree_eq (formed : plan.WellFormed) (arises : Arises plan task) :
    tree plan formed.descends task = .group (Report.groupHead .debug (task.group plan))
      ((task.perform plan).records.map fun record =>
        .item (Report.itemHead .debug ((task.perform plan).item plan record))
          (Report.inOrder (((task.perform plan).tasksOf plan record).map fun next =>
            (next.id, tree plan formed.descends next)))) := by
  obtain ⟨node, found, kind, -⟩ := arises.node
  have head : Report.groupHead .debug (task.group plan) = ⟨some task.id, node.spec.kind.text,
      task.link.map Condition.text, none, (task.perform plan).error⟩ := by
    rw [← kind, Report.groupHead, Task.group, Outcome.group, Task.links_perform found,
      Task.perform_task]
  rw [tree, found]
  show plan.evaluate formed.descends node task.id task.link = _
  rw [Plan.evaluate_eq, fetched_eq arises found, head]
  refine congrArg (Report.Group.group _) (List.map_congr_left fun record _ => ?_)
  have item : Report.itemHead .debug ((task.perform plan).item plan record) =
      ⟨some (Identity.item task.id record.profile record.identifier), some task.id,
        record.profile, record.properties, (task.perform plan).error,
        (plan.linksFrom node.id).filterMap (plan.lack? record)⟩ := by
    rw [Report.itemHead, Outcome.item, Outcome.itemId, Task.perform_task,
      linkErrors_eq formed found]
  rw [item, tasksOf_eq found, List.map_map]
  refine congrArg (fun groups => Report.Item.item _ (Report.inOrder groups))
    (List.map_congr_left fun way member => ?_)
  rw [Function.comp_apply, tree, Plan.node?_of_mem_ways member, Outcome.itemId, Task.perform_task]

end Run

/-! ### The groups of a result -/

namespace Report

/-- Reports that ascend by their identities are in order. -/
theorem inOrder_of_perm {groups ascending : List (String × Group)}
    (reordered : ascending.Perm groups)
    (ascends : ascending.Pairwise fun one other => one.1 < other.1) :
    inOrder groups = ascending.map (·.2) := by
  refine congrArg (List.map Prod.snd) ?_
  have sorted : (groups.mergeSort fun one other => one.1 ≤ other.1).Pairwise fun one other =>
      decide (one.1 ≤ other.1) = true := by
    refine List.pairwise_mergeSort (fun one other third first second => ?_) (fun one other => ?_) _
    · exact decide_eq_true ((of_decide_eq_true first).trans (of_decide_eq_true second))
    · rw [Bool.or_eq_true, decide_eq_true_iff, decide_eq_true_iff]
      exact le_total one.1 other.1
  have distinct : (ascending.map (·.1)).Nodup :=
    List.pairwise_map.mpr (ascends.imp fun less => less.ne)
  refine List.Perm.eq_of_pairwise ?_ sorted (ascends.imp fun less => decide_eq_true less.le)
    ((List.mergeSort_perm _ _).trans reordered.symm)
  intro one other member memberToo less more
  have given : one ∈ ascending := reordered.mem_iff.mpr (List.mem_mergeSort.mp member)
  exact List.inj_on_of_nodup_map distinct given memberToo
    (le_antisymm (of_decide_eq_true less) (of_decide_eq_true more))

end Report

namespace Run

variable {plan : Plan} {root : Plan.Node} {done : List Task} {task : Task}

/-- The done tasks under an item are the further tasks for its record. -/
theorem filter_parent_perm (clear : Discerned plan) (once : done.Nodup)
    (all : ∀ task, task ∈ done ↔ Arises plan task) (arises : Arises plan task) {record : Record}
    (brought : record ∈ (task.perform plan).records) :
    (done.filter (·.parent = some ((task.perform plan).itemId record))).Perm
      ((task.perform plan).tasksOf plan record) := by
  obtain ⟨node, found, -⟩ := arises.node
  refine (List.perm_ext_iff_of_nodup (once.filter _)
    (nodup_tasksOf clear arises brought)).mpr fun next => ?_
  rw [List.mem_filter, all, decide_eq_true_iff, Task.mem_tasksOf found brought]
  constructor
  · rintro ⟨arisesToo, under⟩
    cases arisesToo with
    | root set => cases under
    | @further before _ arisesToo spawned =>
      obtain ⟨held, link, target, value, follows⟩ := arisesToo.follows spawned
      rw [follows.eq] at under
      have item : (before.perform plan).itemId held = (task.perform plan).itemId record :=
        Option.some.inj under
      obtain ⟨groups, records⟩ :=
        item_injective clear.free arisesToo arises follows.brought brought item
      have same := arisesToo.id_injective clear arises groups
      subst same
      have sameRecord := record_injective clear.distinct arises follows.brought brought records
      subst sameRecord
      exact ⟨link, target, value, follows⟩
  · rintro ⟨link, target, value, follows⟩
    have spawned : next ∈ task.further plan :=
      (Task.mem_further found).mpr ⟨record, link, target, value, follows⟩
    refine ⟨.further arises spawned, ?_⟩
    rw [follows.eq]
    rfl

/-- The groups that a result has under an item are those of the further tasks for its record, in the
order of their identities. -/
theorem childGroups_perm (clear : Discerned plan) (once : done.Nodup)
    (all : ∀ task, task ∈ done ↔ Arises plan task) (arises : Arises plan task) {record : Record}
    (brought : record ∈ (task.perform plan).records) :
    ((Result.ofGroups (done.map (Task.group plan))).childGroups
        ((task.perform plan).itemId record)).Perm
      (((task.perform plan).tasksOf plan record).map (Task.group plan)) ∧
    ((Result.ofGroups (done.map (Task.group plan))).childGroups
        ((task.perform plan).itemId record)).Pairwise fun first second => first.id < second.id := by
  obtain ⟨reordered, ascends⟩ := Result.childGroups_ofGroups
    (nodup_group_ids clear once fun task => (all task).mp)
    ((task.perform plan).itemId record)
  refine ⟨reordered.trans ?_, ascends⟩
  rw [List.filter_map]
  refine List.Perm.map _ ?_
  have same : (fun group : Result.Group =>
      decide (group.parent = some ((task.perform plan).itemId record))) ∘ Task.group plan =
      fun other : Task => decide (other.parent = some ((task.perform plan).itemId record)) := by
    funext other
    rw [Function.comp_apply, Task.group_parent]
  rw [same]
  exact filter_parent_perm clear once all arises brought

/-! ### The report on a result -/

/-- A further task of a done task is done later. -/
theorem Accounted.later {before after : List Task} {next : Task}
    (held : Accounted plan root [] (before ++ task :: after)) (formed : plan.WellFormed)
    (spawned : next ∈ task.further plan) : next ∈ after := by
  have member : task ∈ before ++ task :: after := List.mem_append_right _ List.mem_cons_self
  obtain ⟨_, _, _, _, follows⟩ := (held.arise task member).follows spawned
  have kept : next ∈ before ++ task :: after := held.closed task member next spawned
  rcases List.mem_append.mp kept with early | late
  · exact absurd spawned ((List.pairwise_append.mp held.forward).2.2 next early task
      List.mem_cons_self)
  · rcases List.mem_cons.mp late with same | given
    · rw [same] at follows
      exact absurd follows.leads (formed.descends.irrefl.irrefl task.node)
    · exact given

/-- With more levels than there are tasks done after a task, the report on its group is the
evaluation of what it asks. -/
theorem ofGroup_eq_tree (formed : plan.WellFormed) (clear : Discerned plan)
    (set : plan.root = .ok root) (held : Accounted plan root [] done) (levels : Nat) :
    ∀ (before after : List Task) (task : Task), done = before ++ task :: after →
      after.length < levels →
      Report.ofGroup (Result.ofGroups (done.map (Task.group plan))) .debug levels
        (task.group plan) = tree plan formed.descends task := by
  induction levels with
  | zero => exact fun _ _ _ _ none => absurd none (Nat.not_lt_zero _)
  | succ levels inductionHypothesis =>
    intro before after task split enough
    have arises : Arises plan task := held.arise task (by rw [split]; simp)
    obtain ⟨node, found, -⟩ := arises.node
    rw [Report.ofGroup, tree_eq formed arises, Task.group_items, List.map_map]
    refine congrArg (Report.Group.group _) (List.map_congr_left fun record brought => ?_)
    rw [Function.comp_apply]
    refine congrArg (Report.Item.item _) ?_
    obtain ⟨reordered, ascends⟩ := childGroups_perm clear held.once
      (fun _ => held.mem_done_iff set) arises brought
    -- Further tasks are done later, so fewer tasks come after them than after this one.
    have below : ∀ next ∈ (task.perform plan).tasksOf plan record,
        Report.ofGroup (Result.ofGroups (done.map (Task.group plan))) .debug levels
          (next.group plan) = tree plan formed.descends next := by
      intro next member
      have spawned : next ∈ task.further plan := List.mem_flatMap.mpr ⟨record, brought, member⟩
      have later : next ∈ after := (split ▸ held).later formed spawned
      obtain ⟨first, rest, rfl⟩ := List.append_of_mem later
      refine inductionHypothesis (before ++ task :: first) rest next ?_ ?_
      · rw [split, List.append_assoc, List.cons_append]
      · rw [List.length_append, List.length_cons] at enough
        omega
    have named := reordered.map fun group => (group.id, Report.ofGroup
      (Result.ofGroups (done.map (Task.group plan))) .debug levels group)
    rw [List.map_map] at named
    have same : ((task.perform plan).tasksOf plan record).map ((fun group => (group.id,
        Report.ofGroup (Result.ofGroups (done.map (Task.group plan))) .debug levels group)) ∘
        Task.group plan) = ((task.perform plan).tasksOf plan record).map fun next =>
          (next.id, tree plan formed.descends next) := by
      refine List.map_congr_left fun next member => ?_
      rw [Function.comp_apply, Task.group_id, below next member]
    rw [same] at named
    rw [Report.inOrder_of_perm named (List.pairwise_map.mpr ascends), List.map_map]
    rfl

/-- The root group of a result is that of the root task. -/
theorem rootGroups_eq (clear : Discerned plan) (held : Accounted plan root [] done) :
    (Result.ofGroups (done.map (Task.group plan))).rootGroups =
      [(Task.ofRoot root).group plan] := by
  have ids : ((done.map (Task.group plan)).map (·.id)).Nodup :=
    nodup_group_ids clear held.once held.arise
  refine List.perm_singleton.mp ((Result.rootGroups_ofGroups ids).1.trans ?_)
  refine (List.perm_ext_iff_of_nodup ?_ (List.nodup_singleton _)).mpr fun group => ?_
  · exact ids.of_map.filter _
  · rw [List.mem_filter, List.mem_map, List.mem_singleton, decide_eq_true_iff]
    constructor
    · rintro ⟨⟨task, member, rfl⟩, top⟩
      rw [Task.group_parent] at top
      rcases held.spawned task member with rfl | ⟨before, given, spawned⟩
      · rfl
      · obtain ⟨_, _, _, _, follows⟩ := (held.arise before given).follows spawned
        rw [follows.eq] at top
        cases top
    · rintro rfl
      exact ⟨⟨_, held.rooted, rfl⟩, by rw [Task.group_parent]; rfl⟩

/-- With at least as many levels as there are groups, the report on a result is the evaluation of
the root of its plan. -/
theorem report_levels (formed : plan.WellFormed) (clear : Discerned plan)
    (set : plan.root = .ok root) (held : Accounted plan root [] done) {levels : Nat}
    (enough : (Result.ofGroups (done.map (Task.group plan))).size ≤ levels) :
    (Result.ofGroups (done.map (Task.group plan))).rootGroups.map
        (Report.ofGroup (Result.ofGroups (done.map (Task.group plan))) .debug levels) =
      [plan.evaluate formed.descends root Identity.root []] := by
  have ids : ((done.map (Task.group plan)).map (·.id)).Nodup :=
    nodup_group_ids clear held.once held.arise
  have rooted : Task.ofRoot root ∈ done := held.rooted
  rw [Result.size_ofGroups ids, List.length_map] at enough
  obtain ⟨before, after, split⟩ := List.append_of_mem rooted
  have bound : after.length < levels := by
    rw [split, List.length_append, List.length_cons] at enough
    omega
  rw [rootGroups_eq clear held, List.map_singleton,
    ofGroup_eq_tree formed clear set held levels before after _ split bound,
    tree_root formed.descends set]

end Run

/-! ### What is told of every fetch -/

namespace Report

/-- What a report says about an item itself. -/
def Item.head : Item → ItemHead
  | .item head _ => head

mutual

/-- What a report says about a group and the groups below it, each with its items. -/
def Group.fetches : Group → List (GroupHead × List ItemHead)
  | .group head items => (head, items.map Item.head) :: fetchesUnder items

/-- What a report says about the groups below items. -/
def fetchesUnder : List Item → List (GroupHead × List ItemHead)
  | [] => []
  | item :: rest => item.fetches ++ fetchesUnder rest

/-- What a report says about the groups below an item. -/
def Item.fetches : Item → List (GroupHead × List ItemHead)
  | .item _ children => fetchesOf children

/-- What a report says about groups and the groups below them. -/
def fetchesOf : List Group → List (GroupHead × List ItemHead)
  | [] => []
  | group :: rest => group.fetches ++ fetchesOf rest

end

theorem fetchesUnder_eq (items : List Item) : fetchesUnder items = items.flatMap Item.fetches := by
  induction items with
  | nil => rfl
  | cons item rest inductionHypothesis =>
    rw [fetchesUnder, inductionHypothesis, List.flatMap_cons]

theorem fetchesOf_eq (groups : List Group) : fetchesOf groups = groups.flatMap Group.fetches := by
  induction groups with
  | nil => rfl
  | cons group rest inductionHypothesis =>
    rw [fetchesOf, inductionHypothesis, List.flatMap_cons]

end Report

/-- What a report says about what a task has fetched: its group with the error, and its records. -/
def Task.told (plan : Plan) (task : Task) : Report.GroupHead × List Report.ItemHead :=
  (Report.groupHead .debug (task.group plan), (task.group plan).items.map (Report.itemHead .debug))

namespace Run

variable {plan : Plan} {root : Plan.Node}

/-- The evaluation of what a task asks tells what the task fetches, and what the evaluations of its
further tasks tell. -/
theorem fetches_tree (formed : plan.WellFormed) {task : Task} (arises : Arises plan task) :
    (tree plan formed.descends task).fetches.Perm (task.told plan ::
      (task.further plan).flatMap fun next => (tree plan formed.descends next).fetches) := by
  have heads : ((task.perform plan).records.map fun record =>
      Report.Item.item (Report.itemHead .debug ((task.perform plan).item plan record))
        (Report.inOrder (((task.perform plan).tasksOf plan record).map fun next =>
          (next.id, tree plan formed.descends next)))).map Report.Item.head =
      (task.group plan).items.map (Report.itemHead .debug) := by
    rw [Task.group_items, List.map_map, List.map_map]
    rfl
  rw [tree_eq formed arises, Report.Group.fetches, heads, Report.fetchesUnder_eq, List.flatMap_map,
    Task.further, Outcome.tasks, List.flatMap_assoc]
  refine List.Perm.cons _ (List.Perm.flatMap_left _ fun record _ => ?_)
  rw [Report.Item.fetches, Report.fetchesOf_eq]
  have unordered : (Report.inOrder (((task.perform plan).tasksOf plan record).map fun next =>
      (next.id, tree plan formed.descends next))).Perm
      (((task.perform plan).tasksOf plan record).map (tree plan formed.descends)) := by
    have reordered := Report.inOrder_perm (((task.perform plan).tasksOf plan record).map fun next =>
      (next.id, tree plan formed.descends next))
    rw [List.map_map] at reordered
    exact reordered
  refine (unordered.flatMap_right _).trans ?_
  rw [List.flatMap_map]

/-- In the middle of a run, what the done tasks have fetched and what is left to tell for the
outstanding ones make up the evaluation of the root. -/
theorem History.told (formed : plan.WellFormed) (clear : Discerned plan)
    (set : plan.root = .ok root) {outstanding done : List Task}
    (history : History plan root outstanding done) :
    (done.map (Task.told plan) ++
        outstanding.flatMap fun task => (tree plan formed.descends task).fetches).Perm
      (tree plan formed.descends (Task.ofRoot root)).fetches := by
  induction history with
  | start =>
    rw [List.map_nil, List.nil_append, List.flatMap_singleton]
  | @step before after done task history inductionHypothesis =>
    have arises : Arises plan task :=
      (history.accounted clear set).arise task (by simp)
    refine List.Perm.trans ?_ inductionHypothesis
    rw [List.map_append, List.map_singleton, List.append_assoc]
    refine List.Perm.append_left _ ?_
    rw [List.flatMap_append, List.flatMap_append, List.flatMap_append, List.flatMap_cons]
    refine List.Perm.trans ?_ (List.perm_append_comm_assoc _ _ _)
    refine List.Perm.trans ?_ ((fetches_tree formed arises).symm.append_right _)
    rw [List.singleton_append, List.cons_append]
    exact List.perm_append_comm.cons _

/-- A plan with a root has a run wherever the workers are started. The report on a run is the
evaluation of the root of the plan, also with more levels than the groups need, and it tells exactly
once what every task that arises has fetched. -/
theorem report_eq_evaluate (built : plan.Built) (single : plan.edges.Nodup)
    (distinct : DistinctRecords plan) (free : CollisionFree plan) (set : plan.root = .ok root) :
    (∀ machine size, Machine.Starts machine size →
      ∃ result, plan.run machine size = .ok result ∧ Completes plan result) ∧
    ∀ result, Completes plan result →
      result.report .debug =
        [plan.evaluate built.wellFormed.descends root Identity.root []] ∧
      (∀ levels, result.size ≤ levels →
        result.rootGroups.map (Report.ofGroup result .debug levels) = result.report .debug) ∧
      ∃ tasks : List Task, tasks.Nodup ∧ (∀ task, task ∈ tasks ↔ Arises plan task) ∧
        ((result.report .debug).flatMap Report.Group.fetches).Perm
          (tasks.map (Task.told plan)) := by
  have formed := built.wellFormed
  have clear : Unambiguous plan := ⟨single, distinct, free⟩
  constructor
  · intro machine size starts
    obtain ⟨result, ran⟩ := run_ok set starts
    exact ⟨result, ran, completes_run formed ran⟩
  · intro result completes
    obtain ⟨other, done, setToo, history, rfl⟩ := history_of_completes completes
    cases set.symm.trans setToo
    have held := history.accounted clear set
    have told := history.told formed clear set
    have evaluated := @report_levels plan root done formed clear set held
    have whole : (Result.ofGroups (done.map (Task.group plan))).report .debug =
        [plan.evaluate formed.descends root Identity.root []] := evaluated le_rfl
    refine ⟨whole, fun levels enough => (evaluated enough).trans whole.symm, done, held.once,
      fun task => held.mem_done_iff set, ?_⟩
    rw [whole, List.flatMap_singleton, ← tree_root formed.descends set]
    rw [List.flatMap_nil, List.append_nil] at told
    exact told.symm

/-- What the evaluation of the plan that branches tells of the reader that breaks off, for a task
and the item that it finds. -/
def brokenReport (task item condition : String) : Report.Group :=
  .group ⟨some task, "lab.t3", [condition], none, some "fetch failed for t3: connection lost"⟩
    [.item ⟨some item, some task, "main", [], some "fetch failed for t3: connection lost", []⟩ []]

theorem evaluate_branchingEnd (task : String) (condition : Condition) :
    branching.evaluate branching_built.wellFormed.descends branchingEnd task [condition] =
      brokenReport task (Identity.item task "main" "1") condition.text := by
  have fetched : branching.fetched branchingEnd [condition] =
    ([⟨"main", "1", []⟩], some "fetch failed for t3: connection lost") := rfl
  have ways : branching.ways branchingEnd ⟨"main", "1", []⟩ = [] := rfl
  rw [Plan.evaluate_eq, fetched]
  simp only [List.map_cons, List.map_nil, ways, Report.inOrder_nil]
  rfl

theorem evaluate_branchingStop (task : String) :
    branching.evaluate branching_built.wellFormed.descends branchingStop task [.equals "a" "x"] =
      .group ⟨some task, "mem.t2", ["a eq x"], none, none⟩
        [.item ⟨some (Identity.item task "main" "20"), some task, "main",
            [("id", "20"), ("a", "x"), ("c", "z")], none, []⟩
          [branching.evaluate branching_built.wellFormed.descends branchingEnd
            (Identity.task (Identity.item task "main" "20") "n-2") [.equals "c" "z"]]] := by
  have fetched : branching.fetched branchingStop [.equals "a" "x"] =
    ([⟨"main", "20", [("id", "20"), ("a", "x"), ("c", "z")]⟩], none) := rfl
  have ways : branching.ways branchingStop ⟨"main", "20", [("id", "20"), ("a", "x"), ("c", "z")]⟩ =
    [(branchingEnd, .equals "c" "z")] := rfl
  rw [Plan.evaluate_eq, fetched]
  simp only [List.map_cons, List.map_nil, ways, Report.inOrder_singleton]
  rfl

/-- The first record of the root leads on to both other nodes, and the groups under it are in the
order of their identities, not in that of the links. The second record has a value for no link. -/
theorem report_eq_evaluate_branching :
    ∃ result, branching.run .unlimited 4 = .ok result ∧ result.report .debug =
      [.group ⟨some "ROOT", "mem.t1", [], none, none⟩
        [.item ⟨some "295a1cb32e6f8c79", some "ROOT", "main",
            [("id", "1"), ("a", "x"), ("b", "y")], none, []⟩
          [.group ⟨some "877c9fd6ed36e555", "mem.t2", ["a eq x"], none, none⟩
            [.item ⟨some "e6cb3b2a8f735c83", some "877c9fd6ed36e555", "main",
                [("id", "20"), ("a", "x"), ("c", "z")], none, []⟩
              [brokenReport "d2ea63b5f307f478" "3a419ad6274a8b6d" "c eq z"]],
            brokenReport "f00f83ad19826841" "6bec51d3c2250ff5" "b eq y"],
        .item ⟨some "13cca6ef72267da0", some "ROOT", "main", [("id", "2")], none,
            ["attribute \"b\" is missing, cannot link to lab.t3",
              "attribute \"a\" is missing, cannot link to mem.t2"]⟩ []]] := by
  obtain ⟨runs, all⟩ := report_eq_evaluate branching_built (by decide +kernel)
    branching_distinctRecords branching_collisionFree branching_root
  obtain ⟨result, ran, completes⟩ := runs .unlimited 4 rfl
  refine ⟨result, ran, ((all result completes).1).trans ?_⟩
  have fetched : branching.fetched branchingRoot [] =
    ([⟨"main", "1", [("id", "1"), ("a", "x"), ("b", "y")]⟩, ⟨"main", "2", [("id", "2")]⟩], none) :=
    rfl
  have ways : branching.ways branchingRoot ⟨"main", "1", [("id", "1"), ("a", "x"), ("b", "y")]⟩ =
    [(branchingEnd, .equals "b" "y"), (branchingStop, .equals "a" "x")] := rfl
  have stays : branching.ways branchingRoot ⟨"main", "2", [("id", "2")]⟩ = [] := rfl
  have follows : (branching.linksFrom branchingRoot.id).filterMap (branching.lack?
    ⟨"main", "1", [("id", "1"), ("a", "x"), ("b", "y")]⟩) = [] := by decide
  have lacks : (branching.linksFrom branchingRoot.id).filterMap (branching.lack?
    ⟨"main", "2", [("id", "2")]⟩) = ["attribute \"b\" is missing, cannot link to lab.t3",
      "attribute \"a\" is missing, cannot link to mem.t2"] := by decide
  rw [Plan.evaluate_eq, fetched]
  simp only [List.map_cons, List.map_nil, ways, stays, follows, lacks, evaluate_branchingEnd,
    evaluate_branchingStop]
  simp only [Identity.root, branchingEnd, branchingStop, branching_identities, Report.inOrder_nil]
  rw [Report.inOrder_of_perm (.swap _ _ _) (List.pairwise_pair.mpr (by decide))]
  rfl

end Run

end PathQuery
