/-
This file compares the runs of two plans that lie along walks of the same specifications. The nodes
of such plans may be numbered differently, so their tasks and items have different identities. In
the same order the two runs still complete twin tasks, which stand at the same address and bring the
same records, and a brief report, which leaves identities out, is the same for both: every item has
at most one group under it, so the order of identities does not show either.
-/

import PathQuery.Proofs.Addresses
import PathQuery.Proofs.Lockstep
import PathQuery.Proofs.Walks
import PathQuery.Result.Rendered

namespace PathQuery.Run

variable {topology : Topology} {plan other : Plan}

/-! ### Matching lists -/

section

variable {α β γ : Type} {matching : α → β → Prop}

theorem isSome_eq_of_rel {first : Option α} {second : Option β}
    (matched : Option.Rel matching first second) : first.isSome = second.isSome := by
  cases matched <;> rfl

theorem forall₂_toList {first : Option α} {second : Option β}
    (matched : Option.Rel matching first second) :
    List.Forall₂ matching first.toList second.toList := by
  cases matched with
  | none => exact .nil
  | some matches' => exact .cons matches' .nil

theorem forall₂_flatMap {list : List γ} {view : γ → List α} {viewToo : γ → List β}
    (each : ∀ element ∈ list, List.Forall₂ matching (view element) (viewToo element)) :
    List.Forall₂ matching (list.flatMap view) (list.flatMap viewToo) := by
  induction list with
  | nil => exact .nil
  | cons element rest inductionHypothesis =>
    rw [List.flatMap_cons, List.flatMap_cons]
    exact List.rel_append (each element List.mem_cons_self)
      (inductionHypothesis fun later member => each later (List.mem_cons_of_mem _ member))

theorem map_eq_of_forall₂ {first : List α} {second : List β}
    (all : List.Forall₂ matching first second) {view : α → γ} {viewToo : β → γ}
    (same : ∀ one other, matching one other → view one = viewToo other) :
    first.map view = second.map viewToo := by
  induction all with
  | nil => rfl
  | cons matched _ inductionHypothesis =>
    rw [List.map_cons, List.map_cons, same _ _ matched, inductionHypothesis]

end

/-! ### Plans side by side -/

/-- Two walks through plans, node by node of the same specification. -/
structure Abreast (topology : Topology) (plan other : Plan) (here there : List Plan.Node) :
    Prop where
  chain : Plan.Chain topology plan here
  chainToo : Plan.Chain topology other there
  alike : here.map (·.spec) = there.map (·.spec)
  known : ∀ node ∈ here, plan.node? node.id = some node
  knownToo : ∀ node ∈ there, other.node? node.id = some node

/-- What the first nodes of two walks side by side have in common: they have no links, or one link
each, of the same mapping, to nodes from which the walks go on side by side. -/
inductive Ahead (topology : Topology) (plan other : Plan) (node twin : Plan.Node) : Prop where
  | ends : plan.linksFrom node.id = [] → other.linksFrom twin.id = [] →
    Ahead topology plan other node twin
  | goes {second secondTwin : Plan.Node} {rest others : List Plan.Node} {mapping : Mapping} :
    plan.linksFrom node.id = [⟨node.id, second.id, mapping⟩] →
    other.linksFrom twin.id = [⟨twin.id, secondTwin.id, mapping⟩] →
    Abreast topology plan other (second :: rest) (secondTwin :: others) →
    Ahead topology plan other node twin

namespace Abreast

variable {node twin : Plan.Node} {rest others : List Plan.Node}

theorem spec (abreast : Abreast topology plan other (node :: rest) (twin :: others)) :
    node.spec = twin.spec :=
  (List.cons.inj abreast.alike).1

theorem ahead (abreast : Abreast topology plan other (node :: rest) (twin :: others)) :
    Ahead topology plan other node twin := by
  obtain ⟨chain, chainToo, alike, known, knownToo⟩ := abreast
  obtain ⟨spec, later⟩ : node.spec = twin.spec ∧ rest.map (·.spec) = others.map (·.spec) :=
    List.cons.inj alike
  cases chain with
  | last none =>
    cases chainToo with
    | last noneToo => exact .ends none noneToo
    | step => cases later
  | @step _ second rest _ mapped only chain =>
    cases chainToo with
    | last => cases later
    | @step _ secondTwin others _ mappedToo onlyToo chainToo =>
      have next : second.spec = secondTwin.spec := (List.cons.inj later).1
      rw [spec, next] at mapped
      cases mapped.symm.trans mappedToo
      exact .goes only onlyToo ⟨chain, chainToo, later, (List.forall_mem_cons.mp known).2,
        (List.forall_mem_cons.mp knownToo).2⟩

/-- The same attributes are fetched: the links start from the same ones. -/
theorem fetchAttrs (abreast : Abreast topology plan other (node :: rest) (twin :: others)) :
    plan.fetchAttrs node.id = other.fetchAttrs twin.id := by
  have sources : (plan.linksFrom node.id).map (·.mapping.source) =
      (other.linksFrom twin.id).map (·.mapping.source) := by
    cases abreast.ahead with
    | ends none noneToo => rw [none, noneToo]
    | goes only onlyToo => rw [only, onlyToo]; rfl
  rw [Plan.fetchAttrs, Plan.fetchAttrs, abreast.known node List.mem_cons_self,
    abreast.knownToo twin List.mem_cons_self]
  simp only [abreast.spec, sources]

end Abreast

/-! ### Twin tasks -/

/-- Tasks of two plans side by side at the same address, with the same conditions for their link. -/
structure Twins (topology : Topology) (plan other : Plan) (task twin : Task) : Prop where
  stand : ∃ address, At plan address task ∧ At other address twin
  link : task.link = twin.link
  nodes : ∃ node rest twinNode others,
    Abreast topology plan other (node :: rest) (twinNode :: others) ∧
      plan.node? task.node = some node ∧ other.node? twin.node = some twinNode

/-- The root tasks of plans that lie along walks of the same specifications are twins. -/
theorem Twins.root {root otherRoot : Plan.Node} {rest others : List Plan.Node}
    (along : plan.Along topology root rest) (alongToo : other.Along topology otherRoot others)
    (alike : (root :: rest).map (·.spec) = (otherRoot :: others).map (·.spec)) :
    Twins topology plan other (Task.ofRoot root) (Task.ofRoot otherRoot) where
  stand := ⟨[], .root along.set, .root alongToo.set⟩
  link := rfl
  nodes := ⟨root, rest, otherRoot, others, ⟨along.chain, alongToo.chain, alike,
    fun _ => along.node?, fun _ => alongToo.node?⟩, along.node? List.mem_cons_self,
    alongToo.node? List.mem_cons_self⟩

namespace Twins

variable {task twin : Task} (twins : Twins topology plan other task twin)

include twins

theorem kind : task.kind = twin.kind ∧ task.base = twin.base := by
  obtain ⟨address, stands, standsToo⟩ := twins.stand
  obtain ⟨node, rest, twinNode, others, abreast, found, foundToo⟩ := twins.nodes
  obtain ⟨_, asked, kind, base⟩ := stands.arises.node
  obtain ⟨_, askedToo, kindToo, baseToo⟩ := standsToo.arises.node
  cases found.symm.trans asked
  cases foundToo.symm.trans askedToo
  rw [kind, kindToo, base, baseToo, abreast.spec]
  exact ⟨rfl, rfl⟩

/-- Twins bring the same records with the same failure. -/
theorem brings : (task.perform plan).records = (twin.perform other).records ∧
    (task.perform plan).error = (twin.perform other).error := by
  obtain ⟨node, rest, twinNode, others, abreast, found, foundToo⟩ := twins.nodes
  have request : task.request plan node = twin.request other twinNode := by
    rw [Task.request, Task.request, abreast.spec, abreast.fetchAttrs, Task.conditions,
      Task.conditions, twins.kind.2, twins.link]
  rw [Task.perform_of_node found, Task.perform_of_node foundToo, request, abreast.spec]
  exact ⟨rfl, rfl⟩

/-- A brief report says the same about the groups that twins leave. -/
theorem groupHead : Report.groupHead .normal (task.group plan) =
    Report.groupHead .normal (twin.group other) := by
  obtain ⟨node, rest, twinNode, others, abreast, found, foundToo⟩ := twins.nodes
  simp only [Report.groupHead, Task.group, Outcome.group, Task.links_perform found,
    Task.links_perform foundToo, Task.perform_task, twins.kind.1, twins.link, twins.brings.2]

end Twins

/-! ### Further tasks of twins -/

/-- A record is followed along the only link of a node where it has a value for it. -/
theorem tasksOf_of_only {task : Task} {node target : Plan.Node} {link : Plan.Link}
    (found : plan.node? task.node = some node) (only : plan.linksFrom task.node = [link])
    (known : plan.node? link.target = some target) (record : Record) :
    (task.perform plan).tasksOf plan record =
      ((record.value? link.mapping.source).map
        (Task.follow ((task.perform plan).itemId record) link target)).toList := by
  rw [Task.tasksOf_eq_followed found, Plan.followed, only]
  cases held : record.value? link.mapping.source with
  | none => simp [held]
  | some value => simp [held, known]

/-- Twins that bring a record with a value for the link ahead lead to twins. -/
theorem Twins.follow {task twin : Task} {address : Address} {second secondTwin : Plan.Node}
    {rest others : List Plan.Node} {link way : Plan.Link} {record : Record} {value : String}
    (stands : At plan address task) (standsToo : At other address twin)
    (follows : Task.Follows plan task record link second value
      (.follow ((task.perform plan).itemId record) link second value))
    (followsToo : Task.Follows other twin record way secondTwin value
      (.follow ((twin.perform other).itemId record) way secondTwin value))
    (same : link.mapping = way.mapping)
    (next : Abreast topology plan other (second :: rest) (secondTwin :: others)) :
    Twins topology plan other (.follow ((task.perform plan).itemId record) link second value)
      (.follow ((twin.perform other).itemId record) way secondTwin value) where
  stand := ⟨_, .further stands follows rfl, .further standsToo followsToo rfl⟩
  link := by
    show [Condition.equals link.mapping.target value] = [.equals way.mapping.target value]
    rw [same]
  nodes := ⟨second, rest, secondTwin, others, next, next.known _ List.mem_cons_self,
    next.knownToo _ List.mem_cons_self⟩

/-- The tasks that follow a record of twins are twins, one or none. -/
theorem Twins.tasksOf {task twin : Task} (twins : Twins topology plan other task twin)
    {record : Record} (brought : record ∈ (task.perform plan).records) :
    List.Forall₂ (Twins topology plan other) ((task.perform plan).tasksOf plan record)
      ((twin.perform other).tasksOf other record) := by
  obtain ⟨address, stands, standsToo⟩ := twins.stand
  obtain ⟨node, rest, twinNode, others, abreast, found, foundToo⟩ := twins.nodes
  have broughtToo := twins.brings.1 ▸ brought
  cases abreast.ahead with
  | ends none noneToo =>
    rw [(Plan.node?_some found).2] at none
    rw [(Plan.node?_some foundToo).2] at noneToo
    rw [Task.tasksOf_eq_followed found, Task.tasksOf_eq_followed foundToo, Plan.followed,
      Plan.followed, none, noneToo]
    exact .nil
  | @goes second secondTwin _ _ mapping only onlyToo next =>
    rw [(Plan.node?_some found).2] at only
    rw [(Plan.node?_some foundToo).2] at onlyToo
    have known := next.known second List.mem_cons_self
    have knownToo := next.knownToo secondTwin List.mem_cons_self
    rw [tasksOf_of_only found only known, tasksOf_of_only foundToo onlyToo knownToo]
    cases held : record.value? mapping.source with
    | none => exact .nil
    | some value =>
      exact .cons (.follow stands standsToo
        ⟨brought, only ▸ List.mem_singleton_self _, known, held, rfl⟩
        ⟨broughtToo, onlyToo ▸ List.mem_singleton_self _, knownToo, held, rfl⟩ rfl next) .nil

/-- Twins lead to twins, one by one. -/
theorem Twins.further {task twin : Task} (twins : Twins topology plan other task twin) :
    List.Forall₂ (Twins topology plan other) (task.further plan) (twin.further other) := by
  rw [Task.further, Task.further, Outcome.tasks, Outcome.tasks, ← twins.brings.1]
  exact forall₂_flatMap fun record brought => twins.tasksOf brought

/-! ### Identities of twins -/

theorem unforked_of_along {root : Plan.Node} {rest : List Plan.Node}
    (along : plan.Along topology root rest) : Unforked plan := by
  intro id first leaves second leavesToo
  obtain ⟨member, rfl⟩ := Plan.mem_linksFrom.mp leaves
  obtain ⟨node, visited, same⟩ := List.mem_map.mp (along.joined.source_mem first member)
  rw [← same] at leaves leavesToo
  rcases along.chain.linksFrom visited with none | ⟨link, only⟩
  · rw [none] at leaves
    cases leaves
  · rw [only, List.mem_singleton] at leaves leavesToo
    rw [leaves, leavesToo]

section

variable (addressed : Addressed plan) (addressedToo : Addressed other)

include addressed addressedToo

theorem Twins.id_eq_iff {task twin next nextTwin : Task}
    (twins : Twins topology plan other task twin)
    (further : Twins topology plan other next nextTwin) :
    task.id = next.id ↔ twin.id = nextTwin.id := by
  obtain ⟨address, stands, standsToo⟩ := twins.stand
  obtain ⟨place, standsNext, standsNextToo⟩ := further.stand
  rw [stands.id_eq_iff addressed standsNext, standsToo.id_eq_iff addressedToo standsNextToo]

theorem Twins.parent_eq_iff {task twin child childTwin : Task}
    (twins : Twins topology plan other task twin)
    (children : Twins topology plan other child childTwin) {record : Record}
    (brought : record ∈ (task.perform plan).records) :
    child.parent = some ((task.perform plan).itemId record) ↔
      childTwin.parent = some ((twin.perform other).itemId record) := by
  obtain ⟨address, stands, standsToo⟩ := twins.stand
  obtain ⟨below, standsBelow, standsBelowToo⟩ := children.stand
  rw [stands.parent_eq_iff addressed brought standsBelow,
    standsToo.parent_eq_iff addressedToo (twins.brings.1 ▸ brought) standsBelowToo]

end

theorem stand_of_twins {done others : List Task}
    (all : List.Forall₂ (Twins topology plan other) done others) :
    (∀ task ∈ done, ∃ address, At plan address task) ∧
      ∀ twin ∈ others, ∃ address, At other address twin := by
  constructor
  · intro task given
    obtain ⟨twin, -, twins⟩ := exists_of_forall₂_of_mem all.flip given
    obtain ⟨address, stands, -⟩ := twins.stand
    exact ⟨address, stands⟩
  · intro twin given
    obtain ⟨task, -, twins⟩ := exists_of_forall₂_of_mem all given
    obtain ⟨address, -, standsToo⟩ := twins.stand
    exact ⟨address, standsToo⟩

/-- The root group is the one of the root task. -/
theorem rootGroups_of_stand {done : List Task}
    (stand : ∀ task ∈ done, ∃ address, At plan address task) :
    (Result.ofGroups (done.map (Task.group plan))).rootGroups =
      ((Result.ofGroups (done.map (Task.group plan))).group? Identity.root).toList := by
  refine Result.rootGroups_of_sole fun group member => ?_
  obtain ⟨task, performed, rfl⟩ := List.mem_map.mp member
  obtain ⟨_, stands⟩ := stand task performed
  rw [Task.group_parent, Task.group_id]
  exact stands.parent_eq_none_iff

/-- The groups under an item are the one of a task with this parent. -/
theorem childGroups_of_child (addressed : Addressed plan) {done : List Task}
    (stand : ∀ task ∈ done, ∃ address, At plan address task) {address : Address} {task child : Task}
    (stands : At plan address task) {record : Record}
    (brought : record ∈ (task.perform plan).records) (given : child ∈ done)
    (under : child.parent = some ((task.perform plan).itemId record)) :
    (Result.ofGroups (done.map (Task.group plan))).childGroups ((task.perform plan).itemId record) =
      ((Result.ofGroups (done.map (Task.group plan))).group? child.id).toList := by
  refine Result.childGroups_of_sole fun group member => ?_
  obtain ⟨sibling, performed, rfl⟩ := List.mem_map.mp member
  obtain ⟨_, standsChild⟩ := stand child given
  obtain ⟨_, standsSibling⟩ := stand sibling performed
  rw [Task.group_parent, Task.group_id]
  exact stands.parent_eq_iff_id_eq addressed brought standsChild under standsSibling

/-! ### Results with twin groups -/

/-- The groups that twins leave. -/
abbrev TwinGroups (topology : Topology) (plan other : Plan) : Result.Group → Result.Group → Prop :=
  Relation.Map (Twins topology plan other) (Task.group plan) (Task.group other)

/-- Two results of the same size, which have twin groups under the identities of twins. -/
structure Alike (topology : Topology) (plan other : Plan) (first second : Result) : Prop where
  groups : ∀ task twin, Twins topology plan other task twin →
    Option.Rel (TwinGroups topology plan other) (first.group? task.id) (second.group? twin.id)
  size : first.size = second.size

section

variable (addressed : Addressed plan) (addressedToo : Addressed other)

include addressed addressedToo

/-- Recording twin groups keeps results alike. -/
theorem Alike.record {first second : Result} (alike : Alike topology plan other first second)
    {task twin : Task} (twins : Twins topology plan other task twin) :
    Alike topology plan other (first.record (task.group plan))
      (second.record (twin.group other)) where
  groups next nextTwin further := by
    show Option.Rel _ ((first.groups.insert (task.group plan).id (task.group plan)).get? next.id)
      ((second.groups.insert (twin.group other).id (twin.group other)).get? nextTwin.id)
    rw [Dict.get?_insert, Dict.get?_insert, Task.group_id, Task.group_id]
    by_cases same : next.id = task.id
    · rw [if_pos same, if_pos ((further.id_eq_iff addressed addressedToo twins).mp same)]
      exact .some ⟨task, twin, twins, rfl, rfl⟩
    · rw [if_neg same, if_neg fun sameToo =>
        same ((further.id_eq_iff addressed addressedToo twins).mpr sameToo)]
      exact alike.groups next nextTwin further
  size := by
    show (first.groups.insert (task.group plan).id (task.group plan)).size =
      (second.groups.insert (twin.group other).id (twin.group other)).size
    have held : (first.groups.get? task.id).isSome = (second.groups.get? twin.id).isSome :=
      isSome_eq_of_rel (alike.groups task twin twins)
    have size : first.groups.size = second.groups.size := alike.size
    rw [Dict.size_insert, Dict.size_insert, Task.group_id, Task.group_id, held, size]

/-- The results of twin tasks are alike. -/
theorem alike_of_twins {done others : List Task}
    (all : List.Forall₂ (Twins topology plan other) done others) :
    Alike topology plan other (Result.ofGroups (done.map (Task.group plan)))
      (Result.ofGroups (others.map (Task.group other))) := by
  have recorded : ∀ {first second : Result}, Alike topology plan other first second →
      Alike topology plan other ((done.map (Task.group plan)).foldl Result.record first)
        ((others.map (Task.group other)).foldl Result.record second) := by
    induction all with
    | nil => exact fun alike => alike
    | cons twins _ inductionHypothesis =>
      exact fun alike => inductionHypothesis (alike.record addressed addressedToo twins)
  exact recorded ⟨fun _ _ _ => .none, rfl⟩

/-- Under the items that twins have for one record there are twin groups, one or none. -/
theorem childGroups_of_twins {done others : List Task}
    (all : List.Forall₂ (Twins topology plan other) done others) {task twin : Task}
    (twins : Twins topology plan other task twin) {record : Record}
    (brought : record ∈ (task.perform plan).records) :
    List.Forall₂ (TwinGroups topology plan other)
      ((Result.ofGroups (done.map (Task.group plan))).childGroups
        ((task.perform plan).itemId record))
      ((Result.ofGroups (others.map (Task.group other))).childGroups
        ((twin.perform other).itemId record)) := by
  obtain ⟨address, stands, standsToo⟩ := twins.stand
  have broughtToo := twins.brings.1 ▸ brought
  by_cases parented : ∃ child ∈ done, child.parent = some ((task.perform plan).itemId record)
  · obtain ⟨child, given, under⟩ := parented
    obtain ⟨childTwin, givenToo, children⟩ := exists_of_forall₂_of_mem all.flip given
    have underToo := (twins.parent_eq_iff addressed addressedToo children brought).mp under
    rw [childGroups_of_child addressed (stand_of_twins all).1 stands brought given under,
      childGroups_of_child addressedToo (stand_of_twins all).2 standsToo broughtToo givenToo
        underToo]
    exact forall₂_toList ((alike_of_twins addressed addressedToo all).groups _ _ children)
  · rw [Result.childGroups_eq_nil, Result.childGroups_eq_nil]
    · exact .nil
    · intro group member under
      obtain ⟨childTwin, performed, rfl⟩ := List.mem_map.mp member
      obtain ⟨child, given, children⟩ := exists_of_forall₂_of_mem all performed
      rw [Task.group_parent] at under
      exact parented ⟨child, given,
        (twins.parent_eq_iff addressed addressedToo children brought).mpr under⟩
    · intro group member under
      obtain ⟨child, given, rfl⟩ := List.mem_map.mp member
      rw [Task.group_parent] at under
      exact parented ⟨child, given, under⟩

/-! ### Reports on twin groups -/

/-- A brief report on the groups of twins says the same, down to any level. -/
theorem ofGroup_of_twins {done others : List Task}
    (all : List.Forall₂ (Twins topology plan other) done others) (levels : Nat) :
    ∀ {task twin : Task}, Twins topology plan other task twin →
      Report.ofGroup (Result.ofGroups (done.map (Task.group plan))) .normal levels
          (task.group plan) =
        Report.ofGroup (Result.ofGroups (others.map (Task.group other))) .normal levels
          (twin.group other) := by
  induction levels with
  | zero =>
    intro task twin twins
    rw [Report.ofGroup, Report.ofGroup, twins.groupHead]
  | succ levels inductionHypothesis =>
    intro task twin twins
    rw [Report.ofGroup, Report.ofGroup, twins.groupHead, Task.group_items, Task.group_items,
      List.map_map, List.map_map, ← twins.brings.1]
    refine congrArg _ (List.map_congr_left fun record brought => ?_)
    have head : Report.itemHead .normal ((task.perform plan).item plan record) =
        Report.itemHead .normal ((twin.perform other).item other record) := by
      simp only [Report.itemHead, Outcome.item, twins.brings.2]
    have below := childGroups_of_twins addressed addressedToo all twins brought
    rw [Function.comp_apply, Function.comp_apply, head]
    refine congrArg _ (map_eq_of_forall₂ below ?_)
    rintro _ _ ⟨child, childTwin, children, rfl, rfl⟩
    exact inductionHypothesis children

/-- Brief reports on the results of twins are the same, where the root tasks are twins. -/
theorem report_of_twins {root otherRoot : Plan.Node}
    (roots : Twins topology plan other (Task.ofRoot root) (Task.ofRoot otherRoot))
    {done others : List Task} (all : List.Forall₂ (Twins topology plan other) done others) :
    (Result.ofGroups (done.map (Task.group plan))).report .normal =
      (Result.ofGroups (others.map (Task.group other))).report .normal := by
  have alike := alike_of_twins addressed addressedToo all
  rw [Result.report, Result.report, rootGroups_of_stand (stand_of_twins all).1,
    rootGroups_of_stand (stand_of_twins all).2, alike.size]
  refine map_eq_of_forall₂ (forall₂_toList (alike.groups _ _ roots)) ?_
  rintro _ _ ⟨task, twin, twins, rfl, rfl⟩
  exact ofGroup_of_twins addressed addressedToo all _ twins

end

/-! ### Runs in the same order -/

/-- Plans that lie along walks of the same specifications have runs in the same orders, and brief
reports on their results are the same. -/
theorem report_of_runIn {root otherRoot : Plan.Node} {rest others : List Plan.Node}
    (along : plan.Along topology root rest) (alongToo : other.Along topology otherRoot others)
    (alike : (root :: rest).map (·.spec) = (otherRoot :: others).map (·.spec))
    (free : CollisionFree plan) (freeToo : CollisionFree other) (order : List Nat) :
    (plan.runIn order).map (·.report .normal) = (other.runIn order).map (·.report .normal) := by
  have roots := Twins.root along alongToo alike
  have matched :=
    tasksIn_matched along.set alongToo.set roots (fun _ _ twins => twins.further) order
  rw [Plan.runIn, Plan.runIn]
  generalize plan.tasksIn order = done at matched ⊢
  generalize other.tasksIn order = doneToo at matched ⊢
  cases matched with
  | none => rfl
  | some all =>
    exact congrArg some (report_of_twins ⟨free, unforked_of_along along⟩
      ⟨freeToo, unforked_of_along alongToo⟩ roots all)

end PathQuery.Run
