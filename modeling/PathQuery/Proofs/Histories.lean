/-
This file proves that the result of a run does not depend on its order. A run is told by the tasks
that are outstanding and the list of those already done, and one invariant says how the two hold
the tasks that arise: each at most once, and each spawned by a task that is done. When nothing is
outstanding the done tasks are exactly those that arise, so two runs differ only in their order,
and groups of different tasks can be recorded in any order.
-/

import PathQuery.Proofs.Recording
import PathQuery.Proofs.Tasks
import PathQuery.Reader.Memory

namespace PathQuery

namespace Run

variable {plan : Plan} {root : Plan.Node}

/-! ### Runs as lists of tasks -/

/-- The runs of a plan, each by its outstanding tasks and its done tasks in their order. -/
inductive History (plan : Plan) (root : Plan.Node) : (outstanding done : List Task) → Prop where
  | start : History plan root [Task.ofRoot root] []
  | step {before after done : List Task} {task : Task} :
    History plan root (before ++ task :: after) done →
    History plan root (before ++ after ++ task.further plan) (done ++ [task])

theorem ofGroups_done (plan : Plan) (done : List Task) (task : Task) :
    Result.ofGroups ((done ++ [task]).map (Task.group plan)) =
      (Result.ofGroups (done.map (Task.group plan))).record (task.group plan) := by
  rw [List.map_append, List.map_singleton, Result.ofGroups_append_single]

/-- Steps continue a history, and the result stays that of the done tasks. -/
theorem history_of_steps {first second : State} (steps : State.Steps plan first second) :
    ∀ {done}, History plan root first.outstanding done →
      first.result = Result.ofGroups (done.map (Task.group plan)) →
      ∃ all, History plan root second.outstanding all ∧
        second.result = Result.ofGroups (all.map (Task.group plan)) := by
  induction steps with
  | none state => exact fun history same => ⟨_, history, same⟩
  | more step _ inductionHypothesis =>
    intro done history same
    cases step with
    | done before after task result =>
      refine inductionHypothesis (.step history) ?_
      rw [ofGroups_done, ← same]
      rfl

/-- The result of a run is that of its done tasks. -/
theorem history_of_completes {result : Result} (completes : Completes plan result) :
    ∃ root done, plan.root = .ok root ∧ History plan root [] done ∧
      result = Result.ofGroups (done.map (Task.group plan)) := by
  obtain ⟨root, set, steps⟩ := completes
  obtain ⟨done, history, same⟩ := history_of_steps steps .start rfl
  exact ⟨root, done, set, history, same⟩

/-- Only tasks that arise take part in a run. -/
theorem History.arise (set : plan.root = .ok root) {outstanding done : List Task}
    (history : History plan root outstanding done) : ∀ task ∈ outstanding ++ done,
      Arises plan task := by
  induction history with
  | start =>
    intro task member
    cases List.mem_singleton.mp member
    exact .root set
  | @step before after done task _ inductionHypothesis =>
    have arises : Arises plan task := inductionHypothesis task (by simp)
    intro next member
    simp only [List.mem_append, List.mem_cons, List.not_mem_nil, or_false]
      at member inductionHypothesis
    rcases member with ((early | late) | spawned) | (old | rfl)
    · exact inductionHypothesis next (.inl (.inl early))
    · exact inductionHypothesis next (.inl (.inr (.inr late)))
    · exact .further arises spawned
    · exact inductionHypothesis next (.inr old)
    · exact arises

/-! ### Further tasks are told apart -/

/-- A task is spawned by one task only. -/
theorem spawner_injective (clear : Discerned plan) {first second task : Task}
    (arises : Arises plan first) (arisesToo : Arises plan second)
    (spawned : task ∈ first.further plan) (spawnedToo : task ∈ second.further plan) :
    first = second := by
  obtain ⟨_, _, _, _, follows⟩ := arises.follows spawned
  obtain ⟨_, _, _, _, followsToo⟩ := arisesToo.follows spawnedToo
  have items := (follow_injective clear.free arises arisesToo follows followsToo rfl).1
  have groups :=
    (item_injective clear.free arises arisesToo follows.brought followsToo.brought items).1
  exact arises.id_injective clear arisesToo groups

theorem nodup_tasksOf (clear : Discerned plan) {task : Task} (arises : Arises plan task)
    {record : Record} (brought : record ∈ (task.perform plan).records) :
    ((task.perform plan).tasksOf plan record).Nodup := by
  obtain ⟨node, found, -⟩ := arises.node
  rw [Task.tasksOf_eq_followed found]
  refine List.pairwise_filterMap.mpr
    ((List.pairwise_map.mp (clear.forkless task arises record brought)).imp ?_)
  intro way other different one first next second same
  obtain ⟨target, known, rfl⟩ := Option.map_eq_some_iff.mp first
  obtain ⟨goal, knownToo, rfl⟩ := Option.map_eq_some_iff.mp second
  have nodes : target.id = goal.id := congrArg Task.node same
  rw [(Plan.node?_some known).2, (Plan.node?_some knownToo).2] at nodes
  exact different nodes

theorem nodup_further (clear : Discerned plan) {task : Task} (arises : Arises plan task) :
    (task.further plan).Nodup := by
  obtain ⟨node, found, -⟩ := arises.node
  refine List.nodup_flatMap.mpr ⟨fun record brought => nodup_tasksOf clear arises brought, ?_⟩
  refine (List.pairwise_map.mp (clear.distinct task arises)).imp_of_mem ?_
  intro one other brought broughtToo different next member memberToo
  obtain ⟨_, _, _, first⟩ := (Task.mem_tasksOf found brought).mp member
  obtain ⟨_, _, _, second⟩ := (Task.mem_tasksOf found broughtToo).mp memberToo
  have items := (follow_injective clear.free arises arises first second rfl).1
  exact different (item_injective clear.free arises arises brought broughtToo items).2

/-! ### The invariant of a run -/

/-- How the tasks that arise are held in the middle of a run. -/
structure Accounted (plan : Plan) (root : Plan.Node) (outstanding done : List Task) : Prop where
  /-- Every task held arises. -/
  arise : ∀ task ∈ outstanding ++ done, Arises plan task
  /-- No task is held twice. -/
  once : (outstanding ++ done).Nodup
  /-- The root task is held. -/
  rooted : Task.ofRoot root ∈ outstanding ++ done
  /-- Every other task was spawned by a task that is done. -/
  spawned : ∀ task ∈ outstanding ++ done,
    task = Task.ofRoot root ∨ ∃ before ∈ done, task ∈ before.further plan
  /-- All tasks that a done task spawns are held. -/
  closed : ∀ before ∈ done, ∀ task ∈ before.further plan, task ∈ outstanding ++ done
  /-- No task is done before a task that spawns it. -/
  forward : done.Pairwise fun earlier later => earlier ∉ later.further plan

namespace Accounted

theorem start (set : plan.root = .ok root) : Accounted plan root [Task.ofRoot root] [] where
  arise task member := by
    cases List.mem_singleton.mp member
    exact .root set
  once := List.nodup_singleton _
  rooted := List.mem_singleton_self _
  spawned _ member := .inl (List.mem_singleton.mp member)
  closed _ member := absurd member List.not_mem_nil
  forward := .nil

variable {before after done : List Task} {task : Task}

/-- A step holds the further tasks of the task that it does besides those held before. -/
theorem perm_step (plan : Plan) (before after done : List Task) (task : Task) :
    (before ++ after ++ task.further plan ++ (done ++ [task])).Perm
      (task.further plan ++ (before ++ task :: after ++ done)) := by
  refine (List.perm_append_comm.append_right (done ++ [task])).trans ?_
  rw [List.append_assoc]
  refine List.Perm.append_left _ ?_
  rw [← List.append_assoc, List.append_assoc before (task :: after), List.cons_append]
  refine (List.perm_append_singleton task _).trans ?_
  rw [List.append_assoc]
  exact List.perm_middle.symm

/-- The further tasks of an outstanding task are not held yet: what spawns them is not done. -/
theorem disjoint_further (clear : Discerned plan)
    (held : Accounted plan root (before ++ task :: after) done) :
    ∀ next ∈ task.further plan, next ∉ before ++ task :: after ++ done := by
  intro next spawned member
  have outstanding : task ∈ before ++ task :: after := by simp
  have arises := held.arise task (List.mem_append_left _ outstanding)
  rcases held.spawned next member with same | ⟨other, given, spawnedToo⟩
  · obtain ⟨_, _, _, _, follows⟩ := arises.follows spawned
    refine id_ne_root_of_follows follows ?_
    rw [same]
    rfl
  · have arisesToo := held.arise other (List.mem_append_right _ given)
    have same := spawner_injective clear arises arisesToo spawned spawnedToo
    subst same
    exact (List.nodup_append.mp held.once).2.2 task outstanding task given rfl

theorem step (clear : Discerned plan)
    (held : Accounted plan root (before ++ task :: after) done) :
    Accounted plan root (before ++ after ++ task.further plan) (done ++ [task]) := by
  have apart := held.disjoint_further clear
  have outstanding : task ∈ before ++ task :: after := by simp
  have arises := held.arise task (List.mem_append_left _ outstanding)
  have holds : ∀ {next}, next ∈ before ++ after ++ task.further plan ++ (done ++ [task]) ↔
      next ∈ task.further plan ∨ next ∈ before ++ task :: after ++ done := fun {next} =>
    (perm_step plan before after done task).mem_iff.trans List.mem_append
  constructor
  case arise =>
    intro next member
    rcases holds.mp member with new | old
    · exact .further arises new
    · exact held.arise next old
  case once =>
    refine (perm_step plan before after done task).nodup_iff.mpr (List.nodup_append.mpr ?_)
    refine ⟨nodup_further clear arises, held.once, ?_⟩
    intro next new other old same
    exact apart next new (same ▸ old)
  case rooted => exact holds.mpr (.inr held.rooted)
  case spawned =>
    intro next member
    rcases holds.mp member with new | old
    · exact .inr ⟨task, List.mem_append_right _ (List.mem_singleton_self _), new⟩
    · refine (held.spawned next old).imp_right ?_
      rintro ⟨earlier, given, source⟩
      exact ⟨earlier, List.mem_append_left _ given, source⟩
  case closed =>
    intro earlier member next spawned
    rcases List.mem_append.mp member with old | new
    · exact holds.mpr (.inr (held.closed earlier old next spawned))
    · cases List.mem_singleton.mp new
      exact holds.mpr (.inl spawned)
  case forward =>
    refine List.pairwise_append.mpr ⟨held.forward, List.pairwise_singleton _ _, ?_⟩
    intro earlier given later last spawned
    cases List.mem_singleton.mp last
    exact apart earlier spawned (List.mem_append_right _ given)

/-- When nothing is outstanding, the done tasks are those that arise. -/
theorem mem_done_iff (set : plan.root = .ok root) (held : Accounted plan root [] done) :
    task ∈ done ↔ Arises plan task := by
  have closed : Closed plan done := by
    refine ⟨fun other alsoSet => ?_, held.closed⟩
    cases set.symm.trans alsoSet
    exact held.rooted
  exact ⟨held.arise task, closed.mem⟩

end Accounted

/-- Every run keeps its tasks accounted for. -/
theorem History.accounted (clear : Discerned plan) (set : plan.root = .ok root)
    {outstanding done : List Task} (history : History plan root outstanding done) :
    Accounted plan root outstanding done := by
  induction history with
  | start => exact .start set
  | step _ inductionHypothesis => exact inductionHypothesis.step clear

/-! ### Whatever the identities -/

/-- The tasks that a run holds are the root task and what done tasks have spawned, each as often as
it was spawned. -/
theorem History.perm {outstanding done : List Task} (history : History plan root outstanding done) :
    (outstanding ++ done).Perm (Task.ofRoot root :: done.flatMap (Task.further plan)) := by
  induction history with
  | start => exact .refl _
  | @step before after done task _ inductionHypothesis =>
    refine (Accounted.perm_step plan before after done task).trans ?_
    rw [List.flatMap_append, List.flatMap_singleton]
    exact (inductionHypothesis.append_left _).trans
      (List.perm_middle.trans (List.perm_append_comm.cons _))

/-- When nothing is outstanding, the tasks that arise are done. -/
theorem History.closed (set : plan.root = .ok root) {done : List Task}
    (history : History plan root [] done) : Closed plan done :=
  .of_subset set fun _ => history.perm.mem_iff.mpr

/-- When nothing is outstanding, a task that has its identity for itself has left its group. -/
theorem History.group?_of_sole (set : plan.root = .ok root) {done : List Task}
    (history : History plan root [] done) {task : Task} (arises : Arises plan task)
    (sole : Sole plan task) : (Result.ofGroups (done.map (Task.group plan))).group?
      (task.group plan).id = some (task.group plan) := by
  refine Result.group?_of_unique
    (List.mem_map.mpr ⟨task, (history.closed set).mem arises, rfl⟩) fun other given same => ?_
  obtain ⟨next, performed, rfl⟩ := List.mem_map.mp given
  rw [Task.group_id, Task.group_id] at same
  rw [sole next (history.arise set next performed) same]

/-! ### The order of a run -/

theorem group_apart (clear : Discerned plan) {first second : Task}
    (arises : Arises plan first) (arisesToo : Arises plan second) (different : first ≠ second) :
    (first.group plan).Apart (second.group plan) := by
  have ids : first.id ≠ second.id :=
    fun same => different (arises.id_injective clear arisesToo same)
  constructor
  · rw [Task.group_id, Task.group_id]
    exact ids
  · intro one member other memberToo same
    rw [Task.group_items] at member memberToo
    obtain ⟨record, brought, rfl⟩ := List.mem_map.mp member
    obtain ⟨held, broughtToo, rfl⟩ := List.mem_map.mp memberToo
    exact ids (item_injective clear.free arises arisesToo brought broughtToo same).1

theorem nodup_group_ids (clear : Discerned plan) {tasks : List Task} (once : tasks.Nodup)
    (arise : ∀ task ∈ tasks, Arises plan task) :
    ((tasks.map (Task.group plan)).map (·.id)).Nodup := by
  rw [List.map_map]
  refine once.map_on fun first member second memberToo same => ?_
  rw [Function.comp_apply, Function.comp_apply, Task.group_id, Task.group_id] at same
  exact (arise first member).id_injective clear (arise second memberToo) same

/-- What the tasks that arise leave behind, in any order. -/
theorem ofGroups_eq_of_arises (clear : Discerned plan) {first second : List Task}
    (once : first.Nodup) (onceToo : second.Nodup) (all : ∀ task, task ∈ first ↔ Arises plan task)
    (allToo : ∀ task, task ∈ second ↔ Arises plan task) :
    Result.ofGroups (first.map (Task.group plan)) =
      Result.ofGroups (second.map (Task.group plan)) := by
  have reordered : first.Perm second := (List.perm_ext_iff_of_nodup once onceToo).mpr
    fun task => (all task).trans (allToo task).symm
  refine Result.ofGroups_perm (reordered.map _) (List.pairwise_map.mpr (once.imp_of_mem ?_))
  intro one other member memberToo different
  exact group_apart clear ((all one).mp member) ((all other).mp memberToo) different

/-! ### First in, first out -/

theorem State.Steps.trans {first second third : State} (before : Steps plan first second)
    (after : Steps plan second third) : Steps plan first third := by
  induction before with
  | none => exact after
  | more step _ inductionHypothesis => exact .more step (inductionHypothesis after)

theorem steps_of_history {outstanding done : List Task}
    (history : History plan root outstanding done) :
    State.Steps plan (.start root) ⟨outstanding, Result.ofGroups (done.map (Task.group plan))⟩ := by
  induction history with
  | start => exact .none _
  | @step before after done task _ inductionHypothesis =>
    refine inductionHypothesis.trans (.more ?_ (.none _))
    rw [ofGroups_done]
    exact .done before after task _

/-- Doing the tasks at the front one after the other leaves their further tasks at the end. -/
theorem History.front {tasks : List Task} : ∀ {behind done : List Task},
    History plan root (tasks ++ behind) done →
      History plan root (behind ++ tasks.flatMap (Task.further plan)) (done ++ tasks) := by
  induction tasks with
  | nil =>
    intro behind done history
    rwa [List.flatMap_nil, List.append_nil, List.append_nil]
  | cons task rest inductionHypothesis =>
    intro behind done history
    have stepped : History plan root (rest ++ (behind ++ task.further plan)) (done ++ [task]) := by
      rw [← List.append_assoc]
      exact @History.step plan root [] (rest ++ behind) done task history
    have last := inductionHypothesis stepped
    rwa [List.append_assoc, List.append_assoc, List.singleton_append] at last

/-- The node of a task is reached by a walk along so many links. -/
def Reached (plan : Plan) (task : Task) (links : Nat) : Prop :=
  ∃ walk : List String,
    (task.node :: walk).IsChain (fun later earlier => Graph.Leads plan.edges earlier later) ∧
      (∀ id ∈ task.node :: walk, plan.contains id = true) ∧ walk.length = links

theorem Reached.start (set : plan.root = .ok root) : Reached plan (Task.ofRoot root) 0 := by
  refine ⟨[], List.isChain_singleton _, fun id given => ?_, rfl⟩
  cases List.mem_singleton.mp given
  exact Plan.contains_of_node? (Plan.node?_self (Plan.root_ok set))

theorem Reached.further {task next : Task} {links : Nat} (reached : Reached plan task links)
    (spawned : next ∈ task.further plan) : Reached plan next (links + 1) := by
  obtain ⟨walk, chain, known, same⟩ := reached
  obtain ⟨node, found⟩ := Option.isSome_iff_exists.mp (known task.node List.mem_cons_self)
  obtain ⟨record, link, target, value, follows⟩ := (Task.mem_further found).mp spawned
  refine ⟨task.node :: walk, List.isChain_cons_cons.mpr ⟨follows.leads, chain⟩, ?_,
    by rw [← same]; rfl⟩
  intro id given
  rcases List.mem_cons.mp given with here | later
  · have goal : next.node = target.id := by
      rw [follows.eq]
      rfl
    rw [here, goal]
    exact Plan.contains_of_node? (Plan.node?_self follows.known)
  · exact known id later

theorem Reached.lt {task : Task} {links : Nat} (formed : plan.WellFormed)
    (reached : Reached plan task links) : links < plan.nodes.length := by
  obtain ⟨walk, chain, known, rfl⟩ := reached
  exact formed.length_walk_le chain known

/-- So many levels are enough for some tasks: no task is further away than that many links more. -/
def Enough (plan : Plan) (levels : Nat) (tasks : List Task) : Prop :=
  ∀ task ∈ tasks, ∃ links, Reached plan task links ∧ plan.nodes.length ≤ links + levels

theorem Enough.start (set : plan.root = .ok root) :
    Enough plan plan.nodes.length [Task.ofRoot root] := by
  intro task member
  cases List.mem_singleton.mp member
  exact ⟨0, .start set, Nat.le_add_left _ _⟩

theorem Enough.further {levels : Nat} {tasks : List Task}
    (enough : Enough plan (levels + 1) tasks) :
    Enough plan levels (tasks.flatMap (Task.further plan)) := by
  intro next member
  obtain ⟨task, given, spawned⟩ := List.mem_flatMap.mp member
  obtain ⟨links, reached, bound⟩ := enough task given
  exact ⟨links + 1, reached.further spawned, by omega⟩

/-- No task is as far away as the plan is long. -/
theorem Enough.eq_nil (formed : plan.WellFormed) {tasks : List Task}
    (enough : Enough plan 0 tasks) : tasks = [] := by
  refine List.eq_nil_iff_forall_not_mem.mpr fun task member => ?_
  obtain ⟨links, reached, bound⟩ := enough task member
  exact absurd (reached.lt formed) (Nat.not_lt.mpr bound)

end Run

namespace Plan

open Run

/-- The tasks that are done level after level, from those of a first level on. -/
def tasksOfLevels (plan : Plan) : (levels : Nat) → (tasks : List Task) → List Task
  | 0, _ => []
  | levels + 1, tasks =>
    tasks ++ plan.tasksOfLevels levels (tasks.flatMap (Task.further plan))

/-- The tasks of a run from a root, first in, first out. -/
def tasks (plan : Plan) (root : Node) : List Task :=
  plan.tasksOfLevels plan.nodes.length [Task.ofRoot root]

@[simp] theorem tasksOfLevels_nil (plan : Plan) (levels : Nat) :
    plan.tasksOfLevels levels [] = [] := by
  induction levels with
  | zero => rfl
  | succ levels inductionHypothesis => exact inductionHypothesis

/-- Doing tasks level after level records their groups in this order. -/
theorem runLevels_eq (plan : Plan) (levels : Nat) : ∀ tasks done : List Task,
    plan.runLevels levels tasks (Result.ofGroups (done.map (Task.group plan))) =
      Result.ofGroups ((done ++ plan.tasksOfLevels levels tasks).map (Task.group plan)) := by
  induction levels with
  | zero =>
    intro tasks done
    rw [runLevels, tasksOfLevels, List.append_nil]
  | succ levels inductionHypothesis =>
    intro tasks done
    rw [runLevels]
    by_cases ended : tasks.isEmpty = true
    · rw [if_pos ended, List.isEmpty_iff.mp ended, tasksOfLevels_nil, List.append_nil]
    · rw [if_neg ended, tasksOfLevels, ← List.append_assoc, ← inductionHypothesis, Result.ofGroups,
        Result.ofGroups, List.map_append, List.foldl_append]
      simp only [List.flatMap_map, List.foldl_map]
      rfl

end Plan

namespace Run

variable {plan : Plan} {root : Plan.Node} {machine : Machine} {size : Nat}

/-- With enough levels, all tasks that are outstanding and all that come of them are done. -/
theorem History.levels (formed : plan.WellFormed) (levels : Nat) : ∀ {tasks done : List Task},
    Enough plan levels tasks → History plan root tasks done →
      History plan root [] (done ++ plan.tasksOfLevels levels tasks) := by
  induction levels with
  | zero =>
    intro tasks done enough history
    rw [enough.eq_nil formed] at history
    rwa [Plan.tasksOfLevels, List.append_nil]
  | succ levels inductionHypothesis =>
    intro tasks done enough history
    rw [← List.append_nil tasks] at history
    rw [Plan.tasksOfLevels, ← List.append_assoc]
    exact inductionHypothesis enough.further history.front

/-- First in, first out is a run. -/
theorem history_tasks (formed : plan.WellFormed) (set : plan.root = .ok root) :
    History plan root [] (plan.tasks root) :=
  History.levels formed plan.nodes.length (.start set) .start

/-- The tasks first in, first out are all tasks that arise. -/
theorem closed_tasks (formed : plan.WellFormed) (set : plan.root = .ok root) :
    Closed plan (plan.tasks root) :=
  (history_tasks formed set).closed set

theorem completes_tasks (formed : plan.WellFormed) (set : plan.root = .ok root) :
    Completes plan (Result.ofGroups ((plan.tasks root).map (Task.group plan))) :=
  ⟨root, set, steps_of_history (history_tasks formed set)⟩

/-- Running a plan has a result exactly where the plan has a root and the machine starts the
workers, and it is that of the tasks first in, first out. -/
theorem run_eq_ok_iff {result : Result} : plan.run machine size = .ok result ↔
    ∃ root, plan.root = .ok root ∧ machine.Starts size ∧
      Result.ofGroups ((plan.tasks root).map (Task.group plan)) = result := by
  rw [Plan.run, Machine.Starts]
  cases plan.root with
  | error error =>
    constructor
    · exact nofun
    · rintro ⟨_, same, -⟩
      cases same
  | ok root =>
    have levels := plan.runLevels_eq plan.nodes.length [Task.ofRoot root] []
    cases machine.refusal? (Pool.workers size) with
    | some reason =>
      constructor
      · exact nofun
      · rintro ⟨_, -, same, -⟩
        cases same
    | none =>
      constructor
      · intro ran
        exact ⟨root, rfl, rfl, levels.symm.trans (Except.ok.inj ran)⟩
      · rintro ⟨_, same, -, rfl⟩
        cases same
        exact congrArg Except.ok levels

/-- Running a plan first in, first out is a run of it, in which every task is done. -/
theorem completes_run (formed : plan.WellFormed) {result : Result}
    (ran : plan.run machine size = .ok result) : Completes plan result := by
  obtain ⟨root, set, -, rfl⟩ := run_eq_ok_iff.mp ran
  exact completes_tasks formed set

theorem run_ok (set : plan.root = .ok root) (starts : machine.Starts size) :
    ∃ result, plan.run machine size = .ok result :=
  ⟨_, run_eq_ok_iff.mpr ⟨root, set, starts, rfl⟩⟩

/-- Tasks with identities of their own leave a group each. -/
theorem size_of_run (set : plan.root = .ok root) {result : Result}
    (ran : plan.run machine size = .ok result) (apart : ((plan.tasks root).map (·.id)).Nodup) :
    result.size = (plan.tasks root).length := by
  obtain ⟨other, alsoSet, -, rfl⟩ := run_eq_ok_iff.mp ran
  cases set.symm.trans alsoSet
  have ids : (((plan.tasks root).map (Task.group plan)).map (·.id)).Nodup := by
    rwa [List.map_map, show (·.id) ∘ Task.group plan = Task.id from funext (Task.group_id plan)]
  rw [Result.size_ofGroups ids, List.length_map]

/-! ### The order of a run does not matter -/

/-- The result of a run does not depend on the order in which its tasks are done; first in, first
out leads to it too, by a pool of any size that the machine starts the workers for. -/
theorem order_independent (built : plan.Built) (single : plan.edges.Nodup)
    (distinct : DistinctRecords plan) (free : CollisionFree plan) {first second : Result}
    (completes : Completes plan first) (completesToo : Completes plan second) :
    first = second ∧
      ∀ machine size, Machine.Starts machine size → plan.run machine size = .ok first := by
  have unique : ∀ {one other : Result}, Completes plan one → Completes plan other →
      one = other := by
    intro one other completes completesToo
    have clear : Unambiguous plan := ⟨single, distinct, free⟩
    obtain ⟨root, done, set, history, rfl⟩ := history_of_completes completes
    obtain ⟨goal, all, setToo, historyToo, rfl⟩ := history_of_completes completesToo
    have held := history.accounted clear set
    have heldToo := historyToo.accounted clear setToo
    exact ofGroups_eq_of_arises clear held.once heldToo.once
      (fun _ => held.mem_done_iff set) fun _ => heldToo.mem_done_iff setToo
  refine ⟨unique completes completesToo, fun machine size starts => ?_⟩
  obtain ⟨root, set, steps⟩ := completes
  obtain ⟨result, ran⟩ := run_ok set starts
  rw [ran, unique ⟨root, set, steps⟩ (completes_run built.wellFormed ran)]

/-! ### A fork that is joined again -/

/-- A memory with two records to start from, only one of which leads further, and a record that is
joined with it. -/
def threeEnds : Reader.Memory :=
  (((Reader.Memory.empty "mem" ["main"]).store "main" "t1"
    [("id", "1"), ("a", "x"), ("b", "y")]).store "main" "t1" [("id", "2")]).store
    "main" "t2" [("id", "20"), ("a", "x"), ("c", "z")]

/-- A reader that breaks off after one record without properties. -/
def brokenOff : Reader :=
  ⟨"lab", ["main"], ⟨.inline "", .inline ""⟩, fun request =>
    .failed (.partially [⟨"main", "1", []⟩] (.fetch request.typeName "connection lost"))⟩

def branchingRoot : Plan.Node := ⟨"ROOT", ⟨⟨"mem", "t1"⟩, ["main"], [], [], threeEnds.reader⟩⟩

def branchingStop : Plan.Node := ⟨"n-1", ⟨⟨"mem", "t2"⟩, ["main"], [], [], threeEnds.reader⟩⟩

def branchingEnd : Plan.Node := ⟨"n-2", ⟨⟨"lab", "t3"⟩, ["main"], [], [], brokenOff⟩⟩

/-- A plan in which the root leads to the last node directly, and by way of another one. -/
def branching : Plan where
  nodes := [branchingRoot, branchingStop, branchingEnd]
  links := [⟨"ROOT", "n-2", ⟨"b", "b"⟩⟩, ⟨"ROOT", "n-1", ⟨"a", "a"⟩⟩, ⟨"n-1", "n-2", ⟨"c", "c"⟩⟩]

theorem branching_built : branching.Built := by
  have root : Plan.Built ⟨[branchingRoot], []⟩ := .setRoot .empty rfl
  have stop : Plan.Built ⟨[branchingRoot, branchingStop], []⟩ := .addNode root rfl
  have nodes : Plan.Built ⟨[branchingRoot, branchingStop, branchingEnd], []⟩ := .addNode stop rfl
  have direct := nodes.addLink
    (Plan.addLink_ok_of_leaf "ROOT" "n-2" ⟨"b", "b"⟩ rfl rfl (by decide) (by decide))
  have aside := direct.addLink
    (Plan.addLink_ok_of_leaf "ROOT" "n-1" ⟨"a", "a"⟩ rfl rfl (by decide) (by decide))
  exact aside.addLink
    (Plan.addLink_ok_of_leaf "n-1" "n-2" ⟨"c", "c"⟩ rfl rfl (by decide) (by decide))

theorem branching_root : branching.root = .ok branchingRoot := rfl

/-- The identities of the items and of the tasks that start from them. -/
theorem branching_identities :
    Identity.item "ROOT" "main" "1" = "295a1cb32e6f8c79" ∧
    Identity.item "ROOT" "main" "2" = "13cca6ef72267da0" ∧
    Identity.task "295a1cb32e6f8c79" "n-2" = "f00f83ad19826841" ∧
    Identity.task "295a1cb32e6f8c79" "n-1" = "877c9fd6ed36e555" ∧
    Identity.item "f00f83ad19826841" "main" "1" = "6bec51d3c2250ff5" ∧
    Identity.item "877c9fd6ed36e555" "main" "20" = "e6cb3b2a8f735c83" ∧
    Identity.task "e6cb3b2a8f735c83" "n-2" = "d2ea63b5f307f478" ∧
    Identity.item "d2ea63b5f307f478" "main" "1" = "3a419ad6274a8b6d" := by
  decide +kernel

/-- From the root to the last node. -/
def directTask : Task :=
  ⟨"f00f83ad19826841", "n-2", ⟨"lab", "t3"⟩, [], [.equals "b" "y"], some "295a1cb32e6f8c79"⟩

/-- From the root to the node in between. -/
def stopTask : Task :=
  ⟨"877c9fd6ed36e555", "n-1", ⟨"mem", "t2"⟩, [], [.equals "a" "x"], some "295a1cb32e6f8c79"⟩

/-- From the node in between to the last one. -/
def lastTask : Task :=
  ⟨"d2ea63b5f307f478", "n-2", ⟨"lab", "t3"⟩, [], [.equals "c" "z"], some "e6cb3b2a8f735c83"⟩

theorem further_branchingRoot :
    (Task.ofRoot branchingRoot).further branching = [directTask, stopTask] := by
  have follows : (Task.ofRoot branchingRoot).further branching =
      [.follow (Identity.item "ROOT" "main" "1") ⟨"ROOT", "n-2", ⟨"b", "b"⟩⟩ branchingEnd "y",
        .follow (Identity.item "ROOT" "main" "1") ⟨"ROOT", "n-1", ⟨"a", "a"⟩⟩ branchingStop "x"] :=
    rfl
  rw [follows]
  simp only [Task.follow, branchingEnd, branchingStop, branching_identities]
  rfl

theorem further_directTask : directTask.further branching = [] := rfl

theorem further_stopTask : stopTask.further branching = [lastTask] := by
  have follows : stopTask.further branching =
      [.follow (Identity.item "877c9fd6ed36e555" "main" "20") ⟨"n-1", "n-2", ⟨"c", "c"⟩⟩
        branchingEnd "z"] := rfl
  rw [follows]
  simp only [Task.follow, branchingEnd, branching_identities]
  rfl

theorem further_lastTask : lastTask.further branching = [] := rfl

/-- All tasks of the plan. -/
def branchingTasks : List Task := [Task.ofRoot branchingRoot, directTask, stopTask, lastTask]

theorem branching_closed : Closed branching branchingTasks := by
  refine .of_eq branching_root ?_
  simp only [branchingTasks, List.flatMap_cons, List.flatMap_nil, further_branchingRoot,
    further_directTask, further_stopTask, further_lastTask]
  rfl

theorem branching_distinctRecords : DistinctRecords branching :=
  branching_closed.distinctRecords (by decide +kernel)

theorem branching_collisionFree : CollisionFree branching := by
  refine branching_closed.collisionFree ?_
  show [Identity.item "ROOT" "main" "1", Identity.task (Identity.item "ROOT" "main" "1") "n-2",
    Identity.task (Identity.item "ROOT" "main" "1") "n-1", Identity.item "ROOT" "main" "2",
    Identity.item directTask.id "main" "1", Identity.item stopTask.id "main" "20",
    Identity.task (Identity.item stopTask.id "main" "20") "n-2",
    Identity.item lastTask.id "main" "1"].Nodup
  simp only [directTask, stopTask, lastTask, branching_identities]
  decide

/-- The two tasks that the root leads to are done in either order, and the one that the second of
them leads to is done last or between them. The groups are recorded in different orders, and the
results are equal. -/
theorem order_independent_branching : ∃ first second,
    first = Result.ofGroups
      ([Task.ofRoot branchingRoot, directTask, stopTask, lastTask].map (Task.group branching)) ∧
    second = Result.ofGroups
      ([Task.ofRoot branchingRoot, stopTask, lastTask, directTask].map (Task.group branching)) ∧
    Completes branching first ∧ Completes branching second ∧ first = second ∧
    branching.run .unlimited 4 = .ok first := by
  have rooted : History branching branchingRoot [Task.ofRoot branchingRoot] [] := .start
  have forked := @History.step _ _ [] [] [] _ rooted
  rw [further_branchingRoot] at forked
  have direct := @History.step _ _ [] [stopTask] _ _ forked
  rw [further_directTask] at direct
  have aside := @History.step _ _ [] [] _ _ direct
  rw [further_stopTask] at aside
  have last := @History.step _ _ [] [] _ _ aside
  have asideFirst := @History.step _ _ [directTask] [] _ _ forked
  rw [further_stopTask] at asideFirst
  have lastNext := @History.step _ _ [directTask] [] _ _ asideFirst
  rw [further_lastTask] at lastNext
  have directLast := @History.step _ _ [] [] _ _ lastNext
  have completes : Completes branching _ := ⟨_, branching_root, steps_of_history last⟩
  have completesToo : Completes branching _ := ⟨_, branching_root, steps_of_history directLast⟩
  obtain ⟨same, runs⟩ := order_independent branching_built (by decide +kernel)
    branching_distinctRecords branching_collisionFree completes completesToo
  exact ⟨_, _, rfl, rfl, completes, completesToo, same, runs .unlimited 4 rfl⟩

end Run

end PathQuery
