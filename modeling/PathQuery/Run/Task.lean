/-
This file defines the tasks of a run. A task fetches the records of one plan node, under
the conditions of the node and those of the link that led to it; what it finds becomes a
group, and every link of the node whose source attribute a record has a value for
becomes a further task.
-/

import PathQuery.Plan.Basic
import PathQuery.Result.Basic

namespace PathQuery

/-- A fetch to be done for one node of a plan. The root task has no parent item. -/
structure Task where
  id : String
  node : String
  kind : ResourceType
  base : List Condition
  link : List Condition
  parent : Option String
  deriving DecidableEq

/-- What a task has brought: records, and the message for what went wrong, if anything did. -/
structure Outcome where
  task : Task
  records : List Record
  error : Option String
  deriving DecidableEq

namespace Task

/-- The conditions of a task: those of its node, then those of its link. -/
def conditions (task : Task) : List Condition :=
  task.base ++ task.link

/-- The task that fetches the root of a plan. -/
def ofRoot (root : Plan.Node) : Task :=
  ⟨Identity.root, root.id, root.spec.kind, root.spec.conditions, [], none⟩

/-- The task that follows a link from an item to a node, where the item has a value for the source
attribute. -/
def follow (item : String) (link : Plan.Link) (target : Plan.Node) (value : String) : Task :=
  ⟨Identity.task item target.id, target.id, target.spec.kind, target.spec.conditions,
    [.equals link.mapping.target value], some item⟩

/-- Asks the reader of the node of a task for its records. -/
def perform (plan : Plan) (task : Task) : Outcome :=
  match plan.node? task.node with
  | none => ⟨task, [], some (Plan.Error.unknownNode task.node).message⟩
  | some node =>
    let request : Request :=
      ⟨node.spec.kind.name, node.spec.profiles, plan.fetchAttrs node.id, task.conditions⟩
    let (records, error) := (node.spec.reader.fetch request).parts
    ⟨task, records, error⟩

end Task

namespace Outcome

/-- What becomes of one link for one item: a further task, or the message for why there is none. -/
def pursue (plan : Plan) (item : String) (record : Record) (link : Plan.Link) :
    Except String Task :=
  match plan.node? link.target with
  | none => .error ("link target " ++ link.target ++ " is not part of the plan")
  | some target =>
    match record.value? link.mapping.source with
    | some value => .ok (Task.follow item link target value)
    | none =>
      .error ("attribute \"" ++ link.mapping.source ++ "\" is missing, cannot link to " ++
        target.spec.kind.text)

/-- The links of the node of an outcome, and the message for why there are none to be had. -/
def links (plan : Plan) (outcome : Outcome) : List Plan.Link × Option String :=
  match plan.linksOf outcome.task.node with
  | .ok links => (links, none)
  | .error error => ([], some error.message)

/-- The identity of the item that a record becomes. -/
def itemId (outcome : Outcome) (record : Record) : String :=
  Identity.item outcome.task.id record.profile record.identifier

/-- What becomes of every link for one record. -/
def pursuits (plan : Plan) (outcome : Outcome) (record : Record) : List (Except String Task) :=
  (outcome.links plan).1.map (pursue plan (outcome.itemId record) record)

/-- The further tasks for one record. -/
def tasksOf (plan : Plan) (outcome : Outcome) (record : Record) : List Task :=
  (outcome.pursuits plan record).filterMap Except.toOption

/-- The messages for the links that cannot be followed for one record. -/
def linkErrors (plan : Plan) (outcome : Outcome) (record : Record) : List String :=
  (outcome.pursuits plan record).filterMap fun pursuit =>
    match pursuit with
    | .ok _ => none
    | .error message => some message

/-- The item that a record becomes. -/
def item (plan : Plan) (outcome : Outcome) (record : Record) : Result.Item :=
  ⟨outcome.itemId record, outcome.task.id, record, outcome.error, outcome.linkErrors plan record⟩

/-- The group that an outcome becomes. -/
def group (plan : Plan) (outcome : Outcome) : Result.Group where
  id := outcome.task.id
  node := outcome.task.node
  kind := outcome.task.kind
  items := outcome.records.map (outcome.item plan)
  link := outcome.task.link
  linkError := (outcome.links plan).2
  fetchError := outcome.error
  parent := outcome.task.parent

/-- The further tasks of an outcome, in the order of its records and of the links of its node. -/
def tasks (plan : Plan) (outcome : Outcome) : List Task :=
  outcome.records.flatMap (outcome.tasksOf plan)

end Outcome

end PathQuery
