/-
This file proves that a run in a pool of workers always ends, whatever readers answer and
whichever worker is done first. The count of outstanding tasks is that of the tasks the pool
holds, so the aggregator waits only while something is still to come. A task that is aggregated
makes way for tasks of nodes that its node leads to; links close no cycle, so the nodes of the
tasks held descend as a multiset, and between two aggregations every task moves at most twice.
All nodes that tasks ask are nodes of the plan.
-/

import Mathlib.Logic.Hydra
import PathQuery.Proofs.Histories
import PathQuery.Run.Pool

namespace PathQuery

/-! ### What any outcome leads to -/

namespace Outcome

variable {plan : Plan} {outcome : Outcome}

theorem mem_linksFrom_of_mem_links {link : Plan.Link} (member : link ∈ (outcome.links plan).1) :
    link ∈ plan.linksFrom outcome.task.node := by
  unfold links Plan.linksOf at member
  split at member
  · rename_i found same
    split at same
    · cases same
      exact member
    · cases same
  · exact absurd member List.not_mem_nil

/-- A task follows a link from a record of an outcome. -/
structure Spawns (plan : Plan) (outcome : Outcome) (record : Record) (link : Plan.Link)
    (target : Plan.Node) (value : String) (task : Task) : Prop where
  brought : record ∈ outcome.records
  leaves : link ∈ (outcome.links plan).1
  known : plan.node? link.target = some target
  held : record.value? link.mapping.source = some value
  eq : task = Task.follow (outcome.itemId record) link target value

theorem mem_tasks {outcome : Outcome} {task : Task} : task ∈ outcome.tasks plan ↔
    ∃ record link target value, Spawns plan outcome record link target value task := by
  simp only [tasks, tasksOf, pursuits, List.mem_flatMap, List.mem_filterMap, List.mem_map]
  constructor
  · rintro ⟨record, brought, _, ⟨link, leaves, rfl⟩, followed⟩
    obtain ⟨target, value, known, held, same⟩ := toOption_pursue.mp followed
    exact ⟨record, link, target, value, brought, leaves, known, held, same⟩
  · rintro ⟨record, link, target, value, brought, leaves, known, held, same⟩
    exact ⟨record, brought, _, ⟨link, leaves, rfl⟩,
      toOption_pursue.mpr ⟨target, value, known, held, same⟩⟩

theorem Spawns.given {record : Record} {link : Plan.Link} {target : Plan.Node} {value : String}
    {task : Task} (spawns : Spawns plan outcome record link target value task) :
    link ∈ plan.links ∧ link.source = outcome.task.node :=
  Plan.mem_linksFrom.mp (mem_linksFrom_of_mem_links spawns.leaves)

/-- Whatever a task has brought, its further tasks ask nodes of the plan that its node leads to. -/
theorem leads_of_mem_tasks {next : Task} (member : next ∈ outcome.tasks plan) :
    plan.contains next.node = true ∧ Graph.Leads plan.edges outcome.task.node next.node := by
  obtain ⟨_, _, target, _, spawns⟩ := mem_tasks.mp member
  obtain ⟨given, starts⟩ := spawns.given
  have leads := Plan.leads_of_mem given
  rw [starts, ← (Plan.node?_some spawns.known).2] at leads
  rw [spawns.eq]
  exact ⟨Plan.contains_of_node? (Plan.node?_self spawns.known), leads⟩

end Outcome

@[simp] theorem Task.answered_task (plan : Plan) (task : Task) (answer : Answer) :
    (task.answered plan answer).task = task := by
  unfold answered
  split <;> rfl

namespace Pool

variable {plan : Plan} {size : Nat} {answers : Task → Answer → Prop} {root : Plan.Node}

/-! ### The tasks that a pool holds -/

/-- The tasks that were dispatched and are not aggregated yet. -/
def held (pool : Pool) : List Task :=
  pool.queued ++ pool.running ++ pool.brought.map (·.task)

/-- How many times tasks can still be taken or sent before the next aggregation. -/
def moves (pool : Pool) : Nat :=
  2 * pool.queued.length + pool.running.length

theorem perm_moved (front before after behind : List Task) (task : Task) :
    (front ++ (before ++ after) ++ (behind ++ [task])).Perm
      (front ++ (before ++ task :: after) ++ behind) := by
  rw [← List.append_assoc]
  refine (List.perm_append_singleton task _).trans (List.Perm.symm ?_)
  exact ((List.perm_middle.append_left front).trans List.perm_middle).append_right behind

/-- A step either moves a task that stays held, or aggregates what one has brought. -/
theorem Step.cases {pool next : Pool} (step : Step plan size answers pool next) :
    (next.held.Perm pool.held ∧ next.moves < pool.moves ∧
      next.outstanding = pool.outstanding ∧ next.result = pool.result) ∨
    ∃ outcome ∈ pool.brought, 0 < pool.outstanding ∧
      (outcome.task :: next.held).Perm (pool.held ++ outcome.tasks plan) ∧
      next.outstanding = pool.outstanding - 1 + (outcome.tasks plan).length ∧
      next.result = pool.result.record (outcome.group plan) := by
  cases step with
  | take before after running task brought outstanding result free =>
    refine .inl ⟨?_, ?_, rfl, rfl⟩
    · exact (perm_moved [] before after running task).append_right _
    · simp only [moves, List.length_append, List.length_cons, List.length_nil]
      omega
  | send queued before after task answer brought outstanding result given =>
    refine .inl ⟨?_, ?_, rfl, rfl⟩
    · show (queued ++ (before ++ after) ++
          (brought ++ [task.answered plan answer]).map (·.task)).Perm
        (queued ++ (before ++ task :: after) ++ brought.map (·.task))
      rw [List.map_append, List.map_singleton, Task.answered_task]
      exact perm_moved queued before after (brought.map (·.task)) task
    · simp only [moves, List.length_append, List.length_cons]
      omega
  | aggregate queued running outcome brought outstanding result waits =>
    refine .inr ⟨outcome, List.mem_cons_self, waits, ?_, rfl, rfl⟩
    -- The further tasks are queued before the tasks that workers are at, here they come last.
    have later (rest : List Task) : (queued ++ outcome.tasks plan ++ running ++ rest).Perm
        (queued ++ running ++ rest ++ outcome.tasks plan) := by
      simp only [List.append_assoc]
      refine List.Perm.append_left queued ?_
      rw [← List.append_assoc running]
      exact List.perm_append_comm
    exact ((later _).cons outcome.task).trans (List.perm_middle.symm.append_right _)

/-! ### The invariant -/

/-- What holds in every pool on a plan. -/
structure Sound (plan : Plan) (pool : Pool) : Prop where
  /-- The count is that of the tasks held. -/
  counted : pool.outstanding = pool.held.length
  /-- The node of every task held is a node of the plan. -/
  known : ∀ task ∈ pool.held, plan.contains task.node = true

theorem Sound.start (set : plan.root = .ok root) : Sound plan (.start root) where
  counted := rfl
  known task member := by
    cases List.mem_singleton.mp member
    exact Plan.contains_of_node? (Plan.node?_self (Plan.root_ok set))

theorem Sound.step {pool next : Pool} (sound : Sound plan pool)
    (step : Step plan size answers pool next) : Sound plan next := by
  rcases step.cases with ⟨moved, -, same, -⟩ | ⟨outcome, -, waits, replaced, count, -⟩
  · constructor
    case counted => rw [same, sound.counted, moved.length_eq]
    case known => exact fun task member => sound.known task (moved.mem_iff.mp member)
  · constructor
    case counted =>
      have lengths := replaced.length_eq
      rw [List.length_cons, List.length_append, ← sound.counted] at lengths
      omega
    case known =>
      intro task member
      have given := replaced.mem_iff.mp (List.mem_cons_of_mem _ member)
      rcases List.mem_append.mp given with old | new
      · exact sound.known task old
      · exact (Outcome.leads_of_mem_tasks new).1

/-- Every pool that a run leads to is sound. -/
theorem Sound.reached (set : plan.root = .ok root) {pool : Pool}
    (reached : Relation.ReflTransGen (Step plan size answers) (.start root) pool) :
    Sound plan pool := by
  induction reached with
  | refl => exact .start set
  | tail _ step inductionHypothesis => exact inductionHypothesis.step step

/-! ### No run goes on for ever -/

/-- The nodes of the tasks held. -/
def nodes (pool : Pool) : Multiset String :=
  ↑(pool.held.map (·.node))

/-- A step leaves the nodes of the tasks held as they are, with fewer moves to come, or replaces one
by nodes that it leads to. -/
theorem Step.descends {pool next : Pool} (step : Step plan size answers pool next) :
    Prod.Lex (Relation.CutExpand fun later earlier => Graph.Leads plan.edges earlier later)
      (· < ·) (next.nodes, next.moves) (pool.nodes, pool.moves) := by
  rcases step.cases with ⟨moved, fewer, -⟩ | ⟨outcome, -, -, replaced, -⟩
  · have same : next.nodes = pool.nodes := Multiset.coe_eq_coe.mpr (moved.map _)
    rw [same]
    exact .right _ fewer
  · refine .left _ _ ⟨↑((outcome.tasks plan).map (·.node)), outcome.task.node, ?_, ?_⟩
    · intro id member
      obtain ⟨task, spawned, rfl⟩ := List.mem_map.mp (Multiset.mem_coe.mp member)
      exact (Outcome.leads_of_mem_tasks spawned).2
    · have nodes := replaced.map (·.node)
      rw [List.map_cons, List.map_append] at nodes
      rw [add_comm, Multiset.singleton_add, Pool.nodes, Pool.nodes, Multiset.cons_coe,
        Multiset.coe_add]
      exact Multiset.coe_eq_coe.mpr nodes

theorem wellFounded_step (formed : plan.WellFormed) (size : Nat)
    (answers : Task → Answer → Prop) :
    WellFounded fun later earlier => Step plan size answers earlier later :=
  Subrelation.wf Step.descends
    (InvImage.wf (fun pool : Pool => (pool.nodes, pool.moves))
      (WellFounded.prod_lex formed.descends.cutExpand Nat.lt_wfRel.wf))

/-! ### No run stands still before its end -/

/-- Where readers answer, a pool takes no step exactly when its count is zero. -/
theorem Sound.stops_iff {pool : Pool} (sound : Sound plan pool)
    (answered : ∀ task, ∃ answer, answers task answer) :
    (∀ next, ¬ Step plan size answers pool next) ↔ pool.outstanding = 0 := by
  have counted := sound.counted
  obtain ⟨queued, running, brought, outstanding, result⟩ := pool
  simp only [held, List.length_append, List.length_map] at counted
  constructor
  · intro stops
    by_contra waits
    -- A step is possible where something is brought, and otherwise where a worker is at a task; a
    -- worker is free where none is.
    cases brought with
    | cons outcome brought =>
      exact stops _ (.aggregate queued running outcome brought outstanding result
        (Nat.pos_of_ne_zero waits))
    | nil =>
      cases running with
      | cons task running =>
        obtain ⟨answer, given⟩ := answered task
        exact stops _ (.send queued [] running task answer [] outstanding result given)
      | nil =>
        cases queued with
        | cons task queued =>
          exact stops _ (.take [] queued [] task [] outstanding result
            (Nat.le_max_right size 1))
        | nil => exact waits counted
  · intro zero next step
    have none : queued.length + running.length + brought.length = 0 := counted.symm.trans zero
    cases step with
    | take | send =>
      simp only [List.length_append, List.length_cons] at none
      omega
    | aggregate _ _ _ _ _ _ waits => exact absurd zero waits.ne'

/-- Where readers answer, every run goes on to an end. -/
theorem Sound.ends (formed : plan.WellFormed) (answered : ∀ task, ∃ answer, answers task answer)
    {pool : Pool} (sound : Sound plan pool) :
    ∃ last, Relation.ReflTransGen (Step plan size answers) pool last ∧ last.outstanding = 0 := by
  induction pool using (wellFounded_step formed size answers).induction with
  | _ pool inductionHypothesis =>
    by_cases stopped : ∀ next, ¬ Step plan size answers pool next
    · exact ⟨pool, .refl, (sound.stops_iff answered).mp stopped⟩
    · obtain ⟨next, step⟩ := not_forall_not.mp stopped
      obtain ⟨last, onward, zero⟩ := inductionHypothesis next step (sound.step step)
      exact ⟨last, .head step onward, zero⟩

/-! ### The answers of the plan's own readers -/

/-- The answers that the readers of a plan give. -/
def Reading (plan : Plan) (task : Task) (answer : Answer) : Prop :=
  ∀ node, plan.node? task.node = some node →
    answer = node.spec.reader.fetch (task.request plan node)

theorem answered_eq_perform {task : Task} {answer : Answer} (given : Reading plan task answer) :
    task.answered plan answer = task.perform plan := by
  unfold Task.answered
  split
  · rename_i missing
    rw [Task.perform, missing]
  · rename_i node found
    rw [Task.perform_of_node found, given node found]

theorem exists_reading (plan : Plan) (task : Task) : ∃ answer, Reading plan task answer := by
  cases found : plan.node? task.node with
  | none => exact ⟨.broken none, fun node same => by rw [found] at same; cases same⟩
  | some node =>
    refine ⟨node.spec.reader.fetch (task.request plan node), fun other same => ?_⟩
    cases found.symm.trans same
    rfl

/-- A pool without tasks under way can take a queued task, send what it brings and aggregate it. -/
theorem reaches_aggregated (before after : List Task) (task : Task) {outstanding : Nat}
    (waits : 0 < outstanding) (result : Result) :
    Relation.ReflTransGen (Step plan size (Reading plan))
      ⟨before ++ task :: after, [], [], outstanding, result⟩
      ⟨before ++ after ++ (task.perform plan).tasks plan, [], [],
        outstanding - 1 + ((task.perform plan).tasks plan).length,
        result.record ((task.perform plan).group plan)⟩ := by
  obtain ⟨answer, given⟩ := exists_reading plan task
  have taken : Step plan size (Reading plan) ⟨before ++ task :: after, [], [], outstanding, result⟩
      ⟨before ++ after, [task], [], outstanding, result⟩ :=
    .take before after [] task [] outstanding result (Nat.le_max_right size 1)
  have sent : Step plan size (Reading plan) ⟨before ++ after, [task], [], outstanding, result⟩
      ⟨before ++ after, [], [task.answered plan answer], outstanding, result⟩ :=
    .send (before ++ after) [] [] task answer [] outstanding result given
  rw [answered_eq_perform given] at sent
  exact .head taken (.head sent
    (.single (.aggregate (before ++ after) [] (task.perform plan) [] outstanding result waits)))

theorem reaches_of_step {before after : Run.State} (step : Run.State.Step plan before after) :
    Relation.ReflTransGen (Step plan size (Reading plan))
      ⟨before.outstanding, [], [], before.outstanding.length, before.result⟩
      ⟨after.outstanding, [], [], after.outstanding.length, after.result⟩ := by
  cases step with
  | done before after task result =>
    have count : (before ++ after ++ (task.perform plan).tasks plan).length =
        (before ++ task :: after).length - 1 + ((task.perform plan).tasks plan).length := by
      simp only [List.length_append, List.length_cons]
      omega
    have waits : 0 < (before ++ task :: after).length := by
      rw [List.length_append, List.length_cons]
      omega
    have reached := @reaches_aggregated plan size before after task _ waits result
    rwa [← count] at reached

theorem reaches_of_steps {before after : Run.State} (steps : Run.State.Steps plan before after) :
    Relation.ReflTransGen (Step plan size (Reading plan))
      ⟨before.outstanding, [], [], before.outstanding.length, before.result⟩
      ⟨after.outstanding, [], [], after.outstanding.length, after.result⟩ := by
  induction steps with
  | none => exact .refl
  | more step _ inductionHypothesis => exact (reaches_of_step step).trans inductionHypothesis

/-- How a pool tells a run: it holds the outstanding tasks, and what waits to be aggregated is what
the readers of the plan bring. -/
structure Tells (plan : Plan) (pool : Pool) (state : Run.State) : Prop where
  tasks : pool.held.Perm state.outstanding
  result : pool.result = state.result
  own : ∀ outcome ∈ pool.brought, outcome = outcome.task.perform plan

/-- What waits to be aggregated stays what its tasks bring, where all answers to a task bring the
same. -/
theorem Step.own {bring : Task → Outcome} {pool next : Pool}
    (step : Step plan size answers pool next)
    (brings : ∀ task answer, answers task answer → task.answered plan answer = bring task)
    (own : ∀ outcome ∈ pool.brought, outcome = bring outcome.task) :
    ∀ outcome ∈ next.brought, outcome = bring outcome.task := by
  cases step with
  | take => exact own
  | send queued before after task answer brought outstanding result given =>
    intro outcome member
    rcases List.mem_append.mp member with old | new
    · exact own outcome old
    · cases List.mem_singleton.mp new
      rw [Task.answered_task]
      exact brings task answer given
  | aggregate => exact fun outcome member => own outcome (List.mem_cons_of_mem _ member)

/-- While a pool moves tasks the run stands still; an aggregation is a step of the run. -/
theorem Tells.step {pool next : Pool} {state : Run.State} (tells : Tells plan pool state)
    (step : Step plan size (Reading plan) pool next) :
    ∃ after, Run.State.Steps plan state after ∧ Tells plan next after := by
  have own := step.own (fun _ _ => answered_eq_perform) tells.own
  rcases step.cases with ⟨moved, -, -, same⟩ | ⟨outcome, member, -, replaced, -, recorded⟩
  · exact ⟨state, .none _, moved.trans tells.tasks, same.trans tells.result, own⟩
  · have brought := tells.own outcome member
    have held : outcome.task ∈ pool.held :=
      List.mem_append_right _ (List.mem_map.mpr ⟨outcome, member, rfl⟩)
    obtain ⟨outstanding, result⟩ := state
    obtain ⟨before, after, rfl⟩ := List.append_of_mem (tells.tasks.mem_iff.mp held)
    refine ⟨_, .more (.done before after outcome.task result) (.none _), ?_, ?_, own⟩
    · rw [← brought]
      refine (replaced.trans ((tells.tasks.trans List.perm_middle).append_right _)).cons_inv
    · rw [recorded, tells.result, ← brought]

theorem Tells.reached {pool : Pool}
    (reached : Relation.ReflTransGen (Step plan size (Reading plan)) (.start root) pool) :
    ∃ state, Run.State.Steps plan (.start root) state ∧ Tells plan pool state := by
  induction reached with
  | refl => exact ⟨_, .none _, .refl _, rfl, fun _ member => absurd member List.not_mem_nil⟩
  | tail _ step inductionHypothesis =>
    obtain ⟨state, steps, tells⟩ := inductionHypothesis
    obtain ⟨after, further, tellsToo⟩ := tells.step step
    exact ⟨after, steps.trans further, tellsToo⟩

/-- The results of runs are those of pools, of any size, whose readers are those of the plan. -/
theorem completes_iff (set : plan.root = .ok root) {result : Result} :
    Run.Completes plan result ↔
      ∃ pool, Relation.ReflTransGen (Step plan size (Reading plan)) (.start root) pool ∧
        pool.outstanding = 0 ∧ pool.result = result := by
  constructor
  · rintro ⟨other, alsoSet, steps⟩
    cases set.symm.trans alsoSet
    exact ⟨_, reaches_of_steps steps, rfl, rfl⟩
  · rintro ⟨pool, reached, zero, rfl⟩
    obtain ⟨⟨outstanding, result⟩, steps, tells⟩ := Tells.reached reached
    have none : pool.held = [] :=
      List.eq_nil_of_length_eq_zero ((Sound.reached set reached).counted.symm.trans zero)
    have ended : outstanding = [] := List.nil_perm.mp (none ▸ tells.tasks)
    subst ended
    exact ⟨root, set, tells.result ▸ steps⟩

/-! ### Every run ends -/

/-- Whatever readers answer, no run of a pool goes on for ever. At any time the count is that of the
tasks dispatched and not yet aggregated, the pool stops exactly where the count is zero, it can
always go on to there, and everything that a held task asks for is part of the plan. Where the
machine starts the workers of the pool, running the plan has a result, and with the answers of the
plan's readers this is how it comes by it. -/
theorem always_ends (built : plan.Built) (set : plan.root = .ok root) {machine : Machine}
    {size : Nat} (starts : machine.Starts size) (answered : ∀ task, ∃ answer, answers task answer) :
    (WellFounded fun later earlier => Step plan size answers earlier later) ∧
    (∀ pool, Relation.ReflTransGen (Step plan size answers) (.start root) pool →
      pool.outstanding = pool.held.length ∧
      ((∀ next, ¬ Step plan size answers pool next) ↔ pool.outstanding = 0) ∧
      (∃ last, Relation.ReflTransGen (Step plan size answers) pool last ∧
        last.outstanding = 0) ∧
      ∀ task ∈ pool.held, ∃ node, plan.node? task.node = some node ∧
        plan.linksOf task.node = .ok (plan.linksFrom node.id) ∧
        ∀ link ∈ plan.linksFrom node.id, ∃ target, plan.node? link.target = some target) ∧
    ∃ result, plan.run machine size = .ok result ∧
      ∃ pool, Relation.ReflTransGen (Step plan size (Reading plan)) (.start root) pool ∧
        pool.outstanding = 0 ∧ pool.result = result := by
  have formed := built.wellFormed
  refine ⟨wellFounded_step formed size answers, fun pool reached => ?_, ?_⟩
  · have sound := Sound.reached set reached
    refine ⟨sound.counted, sound.stops_iff answered, sound.ends formed answered, ?_⟩
    intro task member
    have known := sound.known task member
    obtain ⟨node, found⟩ := Option.isSome_iff_exists.mp known
    refine ⟨node, found, ?_, fun link leaves => ?_⟩
    · rw [Plan.linksOf, if_pos known, (Plan.node?_some found).2]
    · exact formed.target_node (Plan.mem_linksFrom.mp leaves).1
  · obtain ⟨result, ran⟩ := Run.run_ok set starts
    exact ⟨result, ran, (completes_iff set).mp (Run.completes_run formed ran)⟩

/-- A machine that starts up to sixteen workers. -/
def sixteenWorkers : Machine :=
  ⟨fun workers =>
    if workers ≤ 16 then none else some "Resource temporarily unavailable (os error 11)"⟩

/-- Two records, each of which leads on from the root along one of its links. -/
def twoSamples : Answer :=
  .records [⟨"main", "1", [("a", "x")]⟩, ⟨"main", "2", [("b", "y")]⟩]

/-- The task that asks for them. -/
def probe : Task := .ofRoot Run.branchingRoot

/-- A pool in which two tasks are outstanding, since a reader has answered with other records than
it has stored, goes on to its end; with the answers that the readers have, it has a result. -/
theorem always_ends_twoSamples :
    (∃ pool, Relation.ReflTransGen (Step Run.branching 16 fun _ _ => True)
        (.start Run.branchingRoot) pool ∧
      pool.outstanding = 2 ∧
      ∃ last, Relation.ReflTransGen (Step Run.branching 16 fun _ _ => True) pool last ∧
        last.outstanding = 0) ∧
    ∃ result, Run.branching.run sixteenWorkers 16 = .ok result ∧
      ∃ pool, Relation.ReflTransGen (Step Run.branching 16 (Reading Run.branching))
          (.start Run.branchingRoot) pool ∧
        pool.outstanding = 0 ∧ pool.result = result := by
  have taken : Step Run.branching 16 (fun _ _ => True) (.start _) ⟨[], [probe], [], 1, .empty⟩ :=
    .take [] [] [] probe [] 1 .empty (by decide)
  have sent : Step Run.branching 16 (fun _ _ => True) ⟨[], [probe], [], 1, .empty⟩
      ⟨[], [], [probe.answered Run.branching twoSamples], 1, .empty⟩ :=
    .send [] [] [] probe twoSamples [] 1 .empty trivial
  have aggregated := @Step.aggregate Run.branching 16 (fun _ _ => True) [] []
    (probe.answered Run.branching twoSamples) [] 1 .empty Nat.one_pos
  have reached := Relation.ReflTransGen.head taken (.head sent (.single aggregated))
  have starts : sixteenWorkers.Starts 16 := by decide
  obtain ⟨-, always, runs⟩ := @always_ends _ (fun _ _ => True) _ Run.branching_built
    Run.branching_root sixteenWorkers 16 starts fun _ => ⟨.broken none, trivial⟩
  exact ⟨⟨_, reached, rfl, (always _ reached).2.2.1⟩, runs⟩

end Pool

end PathQuery
