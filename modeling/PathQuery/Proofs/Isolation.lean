/-
This file proves that a failure stays in its subtree. Two families of readers answer alike except to
some calls, where either may fail, break down or answer with other records. A task comes of a chain
of tasks, each spawned by the records of the one before; as long as no task of the chain makes one
of those calls, the chain is the same under both families, and so is the group at its end. No group
depends on anything else: whatever the workers of the two pools are done with first, both record it.
-/

import PathQuery.Proofs.Forks
import PathQuery.Proofs.Replies

namespace PathQuery

/-- An answer tells of a failure unless it is records. -/
theorem Answer.parts_error_eq_none_iff {answer : Answer} :
    answer.parts.2 = none ↔ ∃ found, answer = .records found := by
  cases answer with
  | records found => exact ⟨fun _ => ⟨found, rfl⟩, fun _ => rfl⟩
  | failed error => exact ⟨nofun, nofun⟩
  | broken reason => exact ⟨nofun, nofun⟩

namespace Pool

variable {plan : Plan} {replies first second : Task → Answer} {touched : Task → Prop}
  {root : Plan.Node} {size : Nat} {pool : Pool}

/-! ### Where a task comes from -/

/-- One task is spawned by what another brings. -/
def Spawned (plan : Plan) (replies : Task → Answer) (before task : Task) : Prop :=
  task ∈ (before.replied plan replies).tasks plan

theorem Dispatched.onward {before task : Task} (dispatched : Dispatched plan replies before)
    (onward : Relation.ReflTransGen (Spawned plan replies) before task) :
    Dispatched plan replies task := by
  induction onward with
  | refl => exact dispatched
  | tail _ spawned inductionHypothesis => exact .spawned inductionHypothesis spawned

/-- The root task is not spawned. -/
theorem not_spawned_root {before : Task} : ¬ Spawned plan replies before (.ofRoot root) := by
  intro spawned
  obtain ⟨_, _, _, _, spawns⟩ := Outcome.mem_tasks.mp spawned
  exact id_ne_root_of_spawns spawns rfl

/-- A task is spawned by one dispatched task only. -/
theorem Discerning.before_unique (discerning : Discerning plan replies)
    (single : plan.edges.Nodup) {before earlier task : Task}
    (dispatched : Dispatched plan replies before) (dispatchedToo : Dispatched plan replies earlier)
    (spawned : Spawned plan replies before task) (spawnedToo : Spawned plan replies earlier task) :
    before = earlier := by
  obtain ⟨_, _, _, _, spawns⟩ := Outcome.mem_tasks.mp spawned
  obtain ⟨_, _, _, _, spawnsToo⟩ := Outcome.mem_tasks.mp spawnedToo
  have same := (discerning.spawns_injective dispatched dispatchedToo spawns spawnsToo rfl).1
  exact dispatched.id_injective single discerning dispatchedToo same

/-! ### Spared tasks -/

/-- A dispatched task is spared where neither it nor any task that it comes of is touched. -/
structure Spared (plan : Plan) (replies : Task → Answer) (touched : Task → Prop) (task : Task) :
    Prop where
  dispatched : Dispatched plan replies task
  apart : ∀ ancestor, Dispatched plan replies ancestor →
    Relation.ReflTransGen (Spawned plan replies) ancestor task → ¬ touched ancestor

theorem Spared.untouched {task : Task} (spared : Spared plan replies touched task) :
    ¬ touched task :=
  spared.apart task spared.dispatched .refl

theorem Spared.before {before task : Task} (spared : Spared plan replies touched task)
    (dispatched : Dispatched plan replies before) (spawned : Spawned plan replies before task) :
    Spared plan replies touched before where
  dispatched := dispatched
  apart ancestor given onward := spared.apart ancestor given (onward.tail spawned)

/-- The root task is spared where it is not touched. -/
theorem Spared.ofRoot (set : plan.root = .ok root) (untouched : ¬ touched (.ofRoot root)) :
    Spared plan replies touched (.ofRoot root) where
  dispatched := .root set
  apart ancestor _ onward := by
    rcases onward.cases_tail with same | ⟨_, -, spawned⟩
    · exact same ▸ untouched
    · exact absurd spawned not_spawned_root

/-- What a spared task spawns is spared where it is not touched itself. -/
theorem Spared.spawned (single : plan.edges.Nodup) (discerning : Discerning plan replies)
    {before task : Task} (spared : Spared plan replies touched before)
    (spawned : Spawned plan replies before task) (untouched : ¬ touched task) :
    Spared plan replies touched task where
  dispatched := .spawned spared.dispatched spawned
  apart ancestor given onward := by
    rcases onward.cases_tail with same | ⟨earlier, onward, spawnedToo⟩
    · exact same ▸ untouched
    · cases discerning.before_unique single spared.dispatched (given.onward onward) spawned
        spawnedToo
      exact spared.apart ancestor given onward

theorem replied_eq {task : Task} (same : first task = second task) :
    task.replied plan first = task.replied plan second :=
  congrArg (task.answered plan) same

/-- Where untouched tasks get the same replies, the spared tasks of one side are spared on the
other. -/
theorem Spared.carried (single : plan.edges.Nodup) (discerning : Discerning plan second)
    (agree : ∀ task, ¬ touched task → first task = second task) {task : Task}
    (spared : Spared plan first touched task) : Spared plan second touched task := by
  have dispatched := spared.dispatched
  induction dispatched with
  | root set => exact .ofRoot set spared.untouched
  | @spawned before task dispatched spawned inductionHypothesis =>
    have spare := spared.before dispatched spawned
    have across : Spawned plan second before task := by
      rw [Spawned, ← replied_eq (agree before spare.untouched)]
      exact spawned
    exact (inductionHypothesis spare).spawned single discerning across spared.untouched

/-! ### What results show of the replies -/

/-- The group of a task shows what was answered to it: the records that came, and what went wrong,
told for the group and for each of its items. -/
structure Shows (group : Result.Group) (task : Task) (answer : Answer) : Prop where
  id : group.id = task.id
  node : group.node = task.node
  link : group.link = task.link
  parent : group.parent = task.parent
  records : group.items.map (·.record) = answer.parts.1
  fetchError : group.fetchError = answer.parts.2
  sound : group.fetchError = none ↔ ∃ found, answer = .records found
  queryErrors : ∀ item ∈ group.items, item.queryError = group.fetchError

theorem shows_group {task : Task} {node : Plan.Node} (found : plan.node? task.node = some node)
    (answer : Answer) : Shows ((task.answered plan answer).group plan) task answer := by
  have answered : task.answered plan answer = ⟨task, answer.parts.1, answer.parts.2⟩ := by
    rw [Task.answered, found]
  rw [answered]
  constructor
  case id | node | link | parent | fetchError => rfl
  case records =>
    rw [Outcome.group, List.map_map]
    exact List.map_id _
  case sound => exact Answer.parts_error_eq_none_iff
  case queryErrors =>
    intro item member
    obtain ⟨_, _, rfl⟩ := List.mem_map.mp member
    rfl

/-- A result reports replies where it has a group for each dispatched task, which shows the reply to
the task, and no other groups. -/
structure Reports (plan : Plan) (replies : Task → Answer) (result : Result) : Prop where
  every : ∀ task, Dispatched plan replies task →
    ∃ group, result.group? task.id = some group ∧ Shows group task (replies task)
  only : ∀ id, result.group? id ≠ none → ∃ task, Dispatched plan replies task ∧ task.id = id

/-- When a pool is done its result reports the replies, whatever they are. -/
theorem reports_of_ended (single : plan.edges.Nodup) (discerning : Discerning plan replies)
    (set : plan.root = .ok root)
    (reached : Relation.ReflTransGen (Step plan size (Gives replies)) (.start root) pool)
    (ended : pool.outstanding = 0) : Reports plan replies pool.result where
  every task dispatched := by
    obtain ⟨node, found⟩ := dispatched.node
    exact ⟨_, group?_of_dispatched single discerning set reached ended dispatched,
      shows_group found (replies task)⟩
  only id recorded := by
    obtain ⟨group, found⟩ := Option.ne_none_iff_exists'.mp recorded
    obtain ⟨done, ledger⟩ := Ledger.reached set reached
    rw [ledger.result] at found
    obtain ⟨member, same⟩ := Result.group?_some found
    obtain ⟨task, performed, rfl⟩ := List.mem_map.mp member
    refine ⟨task, ledger.dispatched task (List.mem_append_right _ performed), ?_⟩
    rw [← same, Outcome.group, Task.replied_task]

/-! ### Families of readers -/

/-- What the readers of a family, one for every node, answer to a task. -/
def asked (plan : Plan) (family : Plan.Node → Request → Answer) (task : Task) : Answer :=
  match plan.node? task.node with
  | some node => family node (task.request plan node)
  | none => .broken none

/-- A task makes one of some calls. -/
def Makes (plan : Plan) (calls : Plan.Node → Request → Prop) (task : Task) : Prop :=
  ∃ node, plan.node? task.node = some node ∧ calls node (task.request plan node)

theorem asked_eq {family other : Plan.Node → Request → Answer}
    {calls : Plan.Node → Request → Prop}
    (agree : ∀ node request, ¬ calls node request → family node request = other node request)
    {task : Task} (apart : ¬ Makes plan calls task) :
    asked plan family task = asked plan other task := by
  unfold asked
  split
  · rename_i node found
    exact agree node _ fun called => apart ⟨node, found, called⟩
  · rfl

/-- The answers of the readers that a plan has come to what its tasks bring in a run. -/
theorem replied_own (plan : Plan) (task : Task) :
    task.replied plan (asked plan fun node => node.spec.reader.fetch) = task.perform plan :=
  answered_eq_perform fun node found => by rw [asked, found]

/-- Under those answers the tasks that arise in runs are dispatched. -/
theorem dispatched_own_iff {task : Task} :
    Dispatched plan (asked plan fun node => node.spec.reader.fetch) task ↔
      Run.Arises plan task := by
  constructor
  · intro dispatched
    induction dispatched with
    | root set => exact .root set
    | spawned _ spawned inductionHypothesis =>
      rw [replied_own] at spawned
      exact .further inductionHypothesis spawned
  · intro arises
    induction arises with
    | root set => exact .root set
    | further _ spawned inductionHypothesis =>
      exact .spawned inductionHypothesis ((replied_own plan _).symm ▸ spawned)

/-- Where two families of readers answer alike except to some calls, a pool of either, of any size
and with its tasks done in any order, records the same group for each task that neither makes one of
these calls itself nor comes of one that does; these are the same tasks for both. Every task that is
dispatched has its group, which shows what the task was answered, be it a failure. -/
theorem failures_stay_in_subtrees {family other : Plan.Node → Request → Answer}
    {calls : Plan.Node → Request → Prop} (single : plan.edges.Nodup) (set : plan.root = .ok root)
    (agree : ∀ node request, ¬ calls node request → family node request = other node request)
    (discerning : Discerning plan (asked plan family))
    (discerningToo : Discerning plan (asked plan other)) {width : Nat} {twin : Pool}
    (reached : Relation.ReflTransGen (Step plan size (Gives (asked plan family)))
      (.start root) pool) (ended : pool.outstanding = 0)
    (reachedToo : Relation.ReflTransGen (Step plan width (Gives (asked plan other)))
      (.start root) twin) (endedToo : twin.outstanding = 0) :
    (∀ task, Spared plan (asked plan family) (Makes plan calls) task ↔
      Spared plan (asked plan other) (Makes plan calls) task) ∧
    (∀ task, Spared plan (asked plan family) (Makes plan calls) task →
      ∃ group, pool.result.group? task.id = some group ∧
        twin.result.group? task.id = some group) ∧
    Reports plan (asked plan family) pool.result ∧ Reports plan (asked plan other) twin.result := by
  have alike : ∀ task, ¬ Makes plan calls task →
      asked plan family task = asked plan other task := fun _ => asked_eq agree
  have across : ∀ task, Spared plan (asked plan family) (Makes plan calls) task →
      Spared plan (asked plan other) (Makes plan calls) task :=
    fun _ spared => spared.carried single discerningToo alike
  have back : ∀ task, Spared plan (asked plan other) (Makes plan calls) task →
      Spared plan (asked plan family) (Makes plan calls) task :=
    fun _ spared => spared.carried single discerning fun task apart => (alike task apart).symm
  refine ⟨fun task => ⟨across task, back task⟩, fun task spared => ?_,
    reports_of_ended single discerning set reached ended,
    reports_of_ended single discerningToo set reachedToo endedToo⟩
  have here := group?_of_dispatched single discerning set reached ended spared.dispatched
  have there := group?_of_dispatched single discerningToo set reachedToo endedToo
    (across task spared).dispatched
  rw [← replied_eq (alike task spared.untouched)] at there
  exact ⟨_, here, there⟩

/-! ### A fetch that fails halfway -/

/-- A plan in which both items of the root lead on. -/
def fork : Plan := Run.linked [⟨"a", "a"⟩]

def forkRoot : Plan.Node := ⟨"ROOT", ⟨⟨"mem", "t1"⟩, ["main"], [], [], Run.twoEnds.reader⟩⟩

theorem fork_root : fork.root = .ok forkRoot := rfl

/-- Readers that answer with two records at the root and with one for each of them. One call gets an
answer of its own. -/
def answering (odd : Answer) (node : Plan.Node) (request : Request) : Answer :=
  if node.id = "ROOT" then .records [⟨"main", "1", [("a", "x")]⟩, ⟨"main", "2", [("a", "y")]⟩]
  else if request.conditions = [.equals "a" "x"] then odd
  else .records [⟨"main", "22", []⟩]

/-- A whole answer to that call, and one that breaks off after the same record. -/
def whole : Answer := .records [⟨"main", "21", []⟩]

def partly : Answer := .failed (.partially [⟨"main", "21", []⟩] (.fetch "t2" "gone"))

def oddCall (node : Plan.Node) (request : Request) : Prop :=
  node.id ≠ "ROOT" ∧ request.conditions = [.equals "a" "x"]

/-- The task for one item of the root. -/
def branch (identifier value : String) : Task :=
  ⟨Identity.task (Identity.item "ROOT" "main" identifier) "n-1", "n-1", ⟨"mem", "t2"⟩, [],
    [.equals "a" value], some (Identity.item "ROOT" "main" identifier)⟩

theorem answering_eq (odd late : Answer) (node : Plan.Node) (request : Request)
    (apart : ¬ oddCall node request) :
    answering odd node request = answering late node request := by
  unfold answering
  split
  · rfl
  · rename_i elsewhere
    rw [if_neg fun conditions => apart ⟨elsewhere, conditions⟩,
      if_neg fun conditions => apart ⟨elsewhere, conditions⟩]

theorem fork_spawned_root (odd : Answer) :
    (Run.linkedTask.replied fork (asked fork (answering odd))).tasks fork =
      [branch "1" "x", branch "2" "y"] := rfl

/-- Tasks are spawned by the root task only, and ask the other node. -/
theorem fork_spawns {odd : Answer} {before task : Task} {record : Record} {link : Plan.Link}
    {target : Plan.Node} {value : String} (spawns : Outcome.Spawns fork
      (before.replied fork (asked fork (answering odd))) record link target value task) :
    before.node = "ROOT" ∧ target.id = "n-1" := by
  obtain ⟨given, starts⟩ := spawns.given
  rw [Task.replied_task] at starts
  cases List.mem_singleton.mp given
  exact ⟨starts.symm, (Plan.node?_some spawns.known).2⟩

theorem fork_dispatched {odd : Answer} {task : Task}
    (dispatched : Dispatched fork (asked fork (answering odd)) task) :
    task = Run.linkedTask ∨ task = branch "1" "x" ∨ task = branch "2" "y" := by
  induction dispatched with
  | root set =>
    cases set
    exact .inl rfl
  | spawned _ spawned inductionHypothesis =>
    obtain ⟨_, _, _, _, spawns⟩ := Outcome.mem_tasks.mp spawned
    have starts := (fork_spawns spawns).1
    rcases inductionHypothesis with rfl | rfl | rfl
    · rw [fork_spawned_root] at spawned
      rcases List.mem_cons.mp spawned with same | later
      · exact .inr (.inl same)
      · exact .inr (.inr (List.mem_singleton.mp later))
    · exact absurd starts (by decide)
    · exact absurd starts (by decide)

/-- The records that a task of the plan finds. -/
def forkKeys (task : Task) : List (String × String) :=
  if task.node = "ROOT" then [("main", "1"), ("main", "2")]
  else if task.link = [.equals "a" "x"] then [("main", "21")]
  else [("main", "22")]

/-- The answer to the odd call brings one record, whether the fetch goes on to fail or not. -/
theorem fork_keys {odd : Answer} (one : odd.parts.1 = [⟨"main", "21", []⟩]) {task : Task}
    (dispatched : Dispatched fork (asked fork (answering odd)) task) :
    ((task.replied fork (asked fork (answering odd))).records.map fun record =>
      (record.profile, record.identifier)) = forkKeys task := by
  rcases fork_dispatched dispatched with rfl | rfl | rfl
  · rfl
  · show odd.parts.1.map (fun record => (record.profile, record.identifier)) = _
    rw [one]
    rfl
  · rfl

/-- What is digested: the two items of the root, the tasks for them, and the items that these
find. -/
def forkComponents : List (List String) :=
  [Identity.itemComponents "ROOT" "main" "1", Identity.itemComponents "ROOT" "main" "2",
    Identity.itemComponents (branch "1" "x").id "main" "21",
    Identity.itemComponents (branch "2" "y").id "main" "22",
    Identity.taskComponents (Identity.item "ROOT" "main" "1") "n-1",
    Identity.taskComponents (Identity.item "ROOT" "main" "2") "n-1"]

theorem fork_digests {odd : Answer} (one : odd.parts.1 = [⟨"main", "21", []⟩])
    {components : List String}
    (digests : Digests fork (asked fork (answering odd)) components) :
    components ∈ forkComponents := by
  cases digests with
  | @item task record dispatched brought =>
    have key : (record.profile, record.identifier) ∈ forkKeys task :=
      fork_keys one dispatched ▸ List.mem_map.mpr ⟨record, brought, rfl⟩
    obtain ⟨profile, identifier, properties⟩ := record
    rcases fork_dispatched dispatched with rfl | rfl | rfl
    · rcases List.mem_cons.mp key with same | later
      · cases same
        exact List.mem_of_getElem? (i := 0) rfl
      · cases List.mem_singleton.mp later
        exact List.mem_of_getElem? (i := 1) rfl
    · cases List.mem_singleton.mp key
      exact List.mem_of_getElem? (i := 2) rfl
    · cases List.mem_singleton.mp key
      exact List.mem_of_getElem? (i := 3) rfl
  | @task before task record link target value dispatched spawns =>
    obtain ⟨starts, goal⟩ := fork_spawns spawns
    have key : (record.profile, record.identifier) ∈ forkKeys before :=
      fork_keys one dispatched ▸ List.mem_map.mpr ⟨record, spawns.brought, rfl⟩
    obtain ⟨profile, identifier, properties⟩ := record
    rw [goal]
    rcases fork_dispatched dispatched with rfl | rfl | rfl
    · rcases List.mem_cons.mp key with same | later
      · cases same
        exact List.mem_of_getElem? (i := 4) rfl
      · cases List.mem_singleton.mp later
        exact List.mem_of_getElem? (i := 5) rfl
    · exact absurd starts (by decide)
    · exact absurd starts (by decide)

theorem fork_discerning {odd : Answer} (one : odd.parts.1 = [⟨"main", "21", []⟩]) :
    Discerning fork (asked fork (answering odd)) where
  distinct task dispatched := by
    rw [fork_keys one dispatched]
    rcases fork_dispatched dispatched with rfl | rfl | rfl <;> decide
  free first second digests digestsToo same := by
    have different : (forkComponents.map Identity.ofComponents).Nodup := by decide +kernel
    exact List.inj_on_of_nodup_map different (fork_digests one digests)
      (fork_digests one digestsToo) same

/-- The task for the second item is spared: it comes of the root task only. -/
theorem fork_spared (odd : Answer) :
    Spared fork (asked fork (answering odd)) (Makes fork oddCall) (branch "2" "y") where
  dispatched := .spawned (.root fork_root) (List.mem_of_getElem? (i := 1) rfl)
  apart ancestor given onward := by
    rintro ⟨node, found, elsewhere, conditions⟩
    rcases fork_dispatched given with rfl | rfl | rfl
    · exact elsewhere (Plan.node?_some found).2
    · rcases onward.cases_head with same | ⟨_, spawned, -⟩
      · exact absurd (congrArg Task.link same) (by decide)
      · obtain ⟨_, _, _, _, spawns⟩ := Outcome.mem_tasks.mp spawned
        exact absurd (fork_spawns spawns).1 (by decide)
    · have same : [Condition.equals "a" "y"] = [.equals "a" "x"] := conditions
      exact absurd same (by decide)

/-- A pool is done with the plan where readers answer so. -/
def Done (odd : Answer) (pool : Pool) : Prop :=
  Relation.ReflTransGen (Step fork 4 (Gives (asked fork (answering odd)))) (.start forkRoot) pool ∧
    pool.outstanding = 0

theorem exists_done (odd : Answer) : ∃ pool, Done odd pool := by
  have answered : ∀ task, ∃ answer, Gives (asked fork (answering odd)) task answer :=
    fun _ => ⟨_, rfl⟩
  exact (Sound.start fork_root).ends (Run.linked_built _).wellFormed answered

/-- One fetch fails halfway in one run and not in the other. The group for the other item is the
same, and the group of the failing fetch is there and tells of the failure. -/
theorem failures_stay_in_subtrees_fork : ∃ pool twin : Pool, ∃ spared failed : Result.Group,
    Done whole pool ∧ Done partly twin ∧
    pool.result.group? (branch "2" "y").id = some spared ∧
    twin.result.group? (branch "2" "y").id = some spared ∧
    twin.result.group? (branch "1" "x").id = some failed ∧
    failed.fetchError = some "fetch failed for t2: gone" ∧
    failed.items.map (·.queryError) = [some "fetch failed for t2: gone"] := by
  obtain ⟨pool, reached, ended⟩ := exists_done whole
  obtain ⟨twin, reachedToo, endedToo⟩ := exists_done partly
  have single : fork.edges.Nodup := List.nodup_singleton _
  obtain ⟨-, same, -, reports⟩ := failures_stay_in_subtrees single fork_root
    (answering_eq whole partly) (fork_discerning rfl) (fork_discerning rfl) reached ended reachedToo
    endedToo
  obtain ⟨spared, here, there⟩ := same _ (fork_spared _)
  obtain ⟨failed, recorded, shows⟩ := reports.every (branch "1" "x")
    (.spawned (.root fork_root) (List.mem_of_getElem? (i := 0) rfl))
  refine ⟨pool, twin, spared, failed, ⟨reached, ended⟩, ⟨reachedToo, endedToo⟩, here, there,
    recorded, shows.fetchError, ?_⟩
  have one := congrArg List.length shows.records
  rw [List.length_map] at one
  obtain ⟨item, only⟩ := List.length_eq_one_iff.mp one
  rw [only, List.map_singleton, shows.queryErrors item (only ▸ List.mem_singleton_self _),
    shows.fetchError]
  rfl

end Pool

end PathQuery
