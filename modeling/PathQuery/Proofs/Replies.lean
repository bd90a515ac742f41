/-
This file says what a pool records where every task gets one reply, whatever the replies are. Tasks
are dispatched for the root and for what the replies bring; a reply may be records, a failure with
or without records, or a reader that breaks down. Where no two links join the same nodes, the
records of a reply differ and different components get different identities, dispatched tasks are
told apart by their identities. When a pool is done it has then recorded the group of each of them.
-/

import PathQuery.Proofs.Pool

namespace PathQuery

/-! ### The tasks that an outcome spawns -/

namespace Outcome

variable {plan : Plan}

/-- The record and the target settle a spawned task, where no two records of the outcome are alike
and no two links join the same nodes. -/
theorem Spawns.unique {outcome : Outcome} {record held : Record} {link way : Plan.Link}
    {target goal : Plan.Node} {value content : String} {task other : Task}
    (single : plan.edges.Nodup)
    (distinct : (outcome.records.map fun record => (record.profile, record.identifier)).Nodup)
    (spawns : Spawns plan outcome record link target value task)
    (spawnsToo : Spawns plan outcome held way goal content other)
    (records : (record.profile, record.identifier) = (held.profile, held.identifier))
    (targets : link.target = way.target) : task = other := by
  cases List.inj_on_of_nodup_map distinct spawns.brought spawnsToo.brought records
  obtain ⟨given, starts⟩ := spawns.given
  obtain ⟨givenToo, startsToo⟩ := spawnsToo.given
  cases List.inj_on_of_nodup_map single given givenToo
    (Prod.ext (starts.trans startsToo.symm) targets)
  cases spawns.known.symm.trans spawnsToo.known
  cases spawns.held.symm.trans spawnsToo.held
  exact spawns.eq.trans spawnsToo.eq.symm

end Outcome

/-! ### Dispatched tasks -/

/-- What a task brings where every task gets a reply. -/
def Task.replied (plan : Plan) (replies : Task → Answer) (task : Task) : Outcome :=
  task.answered plan (replies task)

@[simp] theorem Task.replied_task (plan : Plan) (replies : Task → Answer) (task : Task) :
    (task.replied plan replies).task = task :=
  task.answered_task plan (replies task)

namespace Pool

variable {plan : Plan} {replies : Task → Answer} {root : Plan.Node}

/-- The tasks that are dispatched under some replies. -/
inductive Dispatched (plan : Plan) (replies : Task → Answer) : Task → Prop where
  | root {root : Plan.Node} : plan.root = .ok root → Dispatched plan replies (Task.ofRoot root)
  | spawned {before task : Task} : Dispatched plan replies before →
    task ∈ (before.replied plan replies).tasks plan → Dispatched plan replies task

/-- The lists of components that are digested under some replies. -/
inductive Digests (plan : Plan) (replies : Task → Answer) : List String → Prop where
  | item {task : Task} {record : Record} : Dispatched plan replies task →
    record ∈ (task.replied plan replies).records →
    Digests plan replies (Identity.itemComponents task.id record.profile record.identifier)
  | task {before task : Task} {record : Record} {link : Plan.Link} {target : Plan.Node}
    {value : String} : Dispatched plan replies before →
    Outcome.Spawns plan (before.replied plan replies) record link target value task →
    Digests plan replies
      (Identity.taskComponents ((before.replied plan replies).itemId record) target.id)

/-- What tells dispatched tasks apart besides the links of the plan: no reply brings two records of
the same profile and identifier, and different components get different identities. -/
structure Discerning (plan : Plan) (replies : Task → Answer) : Prop where
  distinct : ∀ task, Dispatched plan replies task → ((task.replied plan replies).records.map
    fun record => (record.profile, record.identifier)).Nodup
  free : ∀ first second, Digests plan replies first → Digests plan replies second →
    Identity.ofComponents first = Identity.ofComponents second → first = second

theorem Dispatched.node {task : Task} (dispatched : Dispatched plan replies task) :
    ∃ node, plan.node? task.node = some node := by
  cases dispatched with
  | root set => exact ⟨_, Plan.node?_self (Plan.root_ok set)⟩
  | spawned _ spawned =>
    exact Option.isSome_iff_exists.mp (Outcome.leads_of_mem_tasks spawned).1

theorem id_ne_root_of_spawns {outcome : Outcome} {record : Record} {link : Plan.Link}
    {target : Plan.Node} {value : String} {task : Task}
    (spawns : Outcome.Spawns plan outcome record link target value task) :
    task.id ≠ Identity.root := by
  rw [spawns.eq]
  exact Identity.ofComponents_ne_root _

/-- Spawned tasks of the same identity come of tasks of the same identity, from records that are
alike, to the same node. -/
theorem Discerning.spawns_injective (discerning : Discerning plan replies)
    {first second one other : Task} {record held : Record} {link way : Plan.Link}
    {target goal : Plan.Node} {value content : String}
    (dispatched : Dispatched plan replies first) (dispatchedToo : Dispatched plan replies second)
    (spawns : Outcome.Spawns plan (first.replied plan replies) record link target value one)
    (spawnsToo : Outcome.Spawns plan (second.replied plan replies) held way goal content other)
    (same : one.id = other.id) : first.id = second.id ∧
      (record.profile, record.identifier) = (held.profile, held.identifier) ∧
      link.target = way.target := by
  rw [spawns.eq, spawnsToo.eq] at same
  have tasks := discerning.free _ _ (.task dispatched spawns) (.task dispatchedToo spawnsToo) same
  simp only [Identity.taskComponents, List.cons.injEq, true_and, and_true] at tasks
  obtain ⟨items, targets⟩ := tasks
  rw [Outcome.itemId, Outcome.itemId, Task.replied_task, Task.replied_task] at items
  have records := discerning.free _ _ (.item dispatched spawns.brought)
    (.item dispatchedToo spawnsToo.brought) items
  simp only [Identity.itemComponents, List.cons.injEq, true_and, and_true] at records
  rw [(Plan.node?_some spawns.known).2, (Plan.node?_some spawnsToo.known).2] at targets
  exact ⟨records.1, Prod.ext records.2.1 records.2.2, targets⟩

/-- No two dispatched tasks share an identity. -/
theorem Dispatched.id_injective (single : plan.edges.Nodup)
    (discerning : Discerning plan replies) {first : Task}
    (dispatched : Dispatched plan replies first) : ∀ {second : Task},
      Dispatched plan replies second → first.id = second.id → first = second := by
  induction dispatched with
  | root set =>
    intro second dispatchedToo same
    cases dispatchedToo with
    | root setToo =>
      cases set.symm.trans setToo
      rfl
    | spawned _ spawned =>
      obtain ⟨_, _, _, _, spawns⟩ := Outcome.mem_tasks.mp spawned
      exact absurd same.symm (id_ne_root_of_spawns spawns)
  | @spawned before task dispatched spawned inductionHypothesis =>
    intro second dispatchedToo same
    obtain ⟨record, link, target, value, spawns⟩ := Outcome.mem_tasks.mp spawned
    cases dispatchedToo with
    | root => exact absurd same (id_ne_root_of_spawns spawns)
    | @spawned earlier _ dispatchedToo spawnedToo =>
      obtain ⟨held, way, goal, content, spawnsToo⟩ := Outcome.mem_tasks.mp spawnedToo
      obtain ⟨before_eq, records, targets⟩ :=
        discerning.spawns_injective dispatched dispatchedToo spawns spawnsToo same
      cases inductionHypothesis dispatchedToo before_eq
      exact spawns.unique single (discerning.distinct before dispatched) spawnsToo records targets

/-! ### What a pool has recorded -/

/-- The replies as what readers may answer. -/
def Gives (replies : Task → Answer) (task : Task) (answer : Answer) : Prop := answer = replies task

/-- How a pool comes of the tasks that it has aggregated. -/
structure Ledger (plan : Plan) (replies : Task → Answer) (root : Plan.Node) (pool : Pool)
    (done : List Task) : Prop where
  /-- Only dispatched tasks are held or aggregated. -/
  dispatched : ∀ task ∈ pool.held ++ done, Dispatched plan replies task
  /-- These are the root task and what aggregated tasks have spawned. -/
  spawned : (pool.held ++ done).Perm
    (Task.ofRoot root :: done.flatMap fun task => (task.replied plan replies).tasks plan)
  /-- What is brought is what the replies bring. -/
  own : ∀ outcome ∈ pool.brought, outcome = outcome.task.replied plan replies
  result : pool.result =
    Result.ofGroups (done.map fun task => (task.replied plan replies).group plan)

theorem Ledger.start (set : plan.root = .ok root) : Ledger plan replies root (.start root) [] where
  dispatched task member := by
    cases List.mem_singleton.mp member
    exact .root set
  spawned := .refl _
  own := nofun
  result := rfl

/-- A step keeps the ledger, and an aggregation adds its task. -/
theorem Ledger.step {size : Nat} {pool next : Pool} {done : List Task}
    (ledger : Ledger plan replies root pool done)
    (step : Step plan size (Gives replies) pool next) :
    ∃ all, Ledger plan replies root next all := by
  have own := step.own (fun task _ given => congrArg (task.answered plan) given) ledger.own
  rcases step.cases with ⟨moved, -, -, same⟩ | ⟨outcome, member, -, replaced, -, recorded⟩
  · refine ⟨done, fun task held => ?_, ?_, own, same.trans ledger.result⟩
    · exact ledger.dispatched task ((moved.append_right done).mem_iff.mp held)
    · exact (moved.append_right done).trans ledger.spawned
  · have brought := ledger.own outcome member
    have held : outcome.task ∈ pool.held :=
      List.mem_append_right _ (List.mem_map.mpr ⟨outcome, member, rfl⟩)
    have dispatched := ledger.dispatched outcome.task (List.mem_append_left _ held)
    have whole : (next.held ++ (done ++ [outcome.task])).Perm
        (outcome.tasks plan ++ (pool.held ++ done)) := by
      rw [← List.append_assoc, ← List.append_assoc]
      refine (List.perm_append_singleton _ _).trans ?_
      exact (replaced.trans List.perm_append_comm).append_right done
    refine ⟨done ++ [outcome.task], fun task given => ?_, ?_, own, ?_⟩
    · rcases List.mem_append.mp (whole.mem_iff.mp given) with new | old
      · exact .spawned dispatched (brought ▸ new)
      · exact ledger.dispatched task old
    · rw [List.flatMap_append, List.flatMap_singleton, ← brought]
      refine whole.trans ((ledger.spawned.append_left _).trans ?_)
      exact List.perm_middle.trans (List.perm_append_comm.cons _)
    · rw [recorded, ledger.result, List.map_append, List.map_singleton,
        Result.ofGroups_append_single, ← brought]

theorem Ledger.reached {size : Nat} {pool : Pool} (set : plan.root = .ok root)
    (reached : Relation.ReflTransGen (Step plan size (Gives replies)) (.start root) pool) :
    ∃ done, Ledger plan replies root pool done := by
  induction reached with
  | refl => exact ⟨[], .start set⟩
  | tail _ step inductionHypothesis =>
    obtain ⟨done, ledger⟩ := inductionHypothesis
    exact ledger.step step

/-- When nothing is held any more, the dispatched tasks are those that were aggregated. -/
theorem Ledger.mem_done_iff {pool : Pool} {done : List Task} (set : plan.root = .ok root)
    (ledger : Ledger plan replies root pool done) (none : pool.held = []) {task : Task} :
    task ∈ done ↔ Dispatched plan replies task := by
  have dispatched := ledger.dispatched
  have spawned := ledger.spawned
  rw [none, List.nil_append] at dispatched spawned
  refine ⟨dispatched task, fun given => ?_⟩
  induction given with
  | root setToo =>
    cases set.symm.trans setToo
    exact spawned.mem_iff.mpr List.mem_cons_self
  | spawned _ member inductionHypothesis =>
    exact spawned.mem_iff.mpr (List.mem_cons_of_mem _
      (List.mem_flatMap.mpr ⟨_, inductionHypothesis, member⟩))

/-- When a pool is done, it has recorded the group of every dispatched task under the identity of
the task. -/
theorem group?_of_dispatched {size : Nat} {pool : Pool} (single : plan.edges.Nodup)
    (discerning : Discerning plan replies) (set : plan.root = .ok root)
    (reached : Relation.ReflTransGen (Step plan size (Gives replies)) (.start root) pool)
    (ended : pool.outstanding = 0) {task : Task} (dispatched : Dispatched plan replies task) :
    pool.result.group? task.id = some ((task.replied plan replies).group plan) := by
  have none : pool.held = [] :=
    List.eq_nil_of_length_eq_zero ((Sound.reached set reached).counted.symm.trans ended)
  obtain ⟨done, ledger⟩ := Ledger.reached set reached
  have done_iff : ∀ {other}, other ∈ done ↔ Dispatched plan replies other :=
    ledger.mem_done_iff set none
  have groupId : ∀ other : Task, ((other.replied plan replies).group plan).id = other.id :=
    fun other => congrArg Task.id (Task.replied_task plan replies other)
  rw [ledger.result, ← groupId task]
  refine Result.group?_of_unique (List.mem_map.mpr ⟨task, done_iff.mpr dispatched, rfl⟩) ?_
  intro group member same
  obtain ⟨other, performed, rfl⟩ := List.mem_map.mp member
  rw [groupId, groupId] at same
  rw [(done_iff.mp performed).id_injective single discerning dispatched same]

end Pool

end PathQuery
