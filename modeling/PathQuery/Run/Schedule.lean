/-
This file defines runs of plans. A run starts with the root task outstanding; in each
step one of the outstanding tasks is done, its group is recorded and its further tasks
become outstanding. The order in which outstanding tasks are done is free; the schedule
given here takes them first in, first out. The tasks are done by the workers of a pool,
which the machine has to start before there is anything to do.
-/

import PathQuery.Run.Task

namespace PathQuery

namespace Run

/-- A run under way: the tasks that are outstanding and the groups recorded so far. -/
structure State where
  outstanding : List Task
  result : Result
  deriving DecidableEq

namespace State

/-- The run in which nothing is done yet. -/
def start (root : Plan.Node) : State :=
  ⟨[Task.ofRoot root], .empty⟩

/-- A step of a run: any one of the outstanding tasks is done. -/
inductive Step (plan : Plan) : State → State → Prop where
  | done (before after : List Task) (task : Task) (result : Result) :
    Step plan ⟨before ++ task :: after, result⟩
      ⟨before ++ after ++ (task.perform plan).tasks plan,
        result.record ((task.perform plan).group plan)⟩

/-- Any number of steps. -/
inductive Steps (plan : Plan) : State → State → Prop where
  | none (state : State) : Steps plan state state
  | more {first second third : State} :
    Step plan first second → Steps plan second third → Steps plan first third

end State

/-- A result of a run from its start to where no task is outstanding. -/
def Completes (plan : Plan) (result : Result) : Prop :=
  ∃ root, plan.root = .ok root ∧ State.Steps plan (.start root) ⟨[], result⟩

end Run

/-! ### The workers -/

/-- The number of workers in a pool of some size. There is always one. -/
def Pool.workers (size : Nat) : Nat := max size 1

/-- What a machine does when it is asked for a number of workers: it starts them, or it gives the
reason why it does not. -/
structure Machine where
  refusal? : (workers : Nat) → Option String

namespace Machine

/-- The machine that starts any number of workers. -/
def unlimited : Machine := ⟨fun _ => none⟩

/-- The machine starts the workers for a pool of some size. -/
def Starts (machine : Machine) (size : Nat) : Prop :=
  machine.refusal? (Pool.workers size) = none

instance (machine : Machine) (size : Nat) : Decidable (machine.Starts size) :=
  inferInstanceAs (Decidable (_ = none))

end Machine

/-! ### First in, first out -/

namespace Plan

/-- Does the tasks of one level after the other. Every level is one link further from the root. -/
def runLevels (plan : Plan) : (levels : Nat) → (tasks : List Task) → Result → Result
  | 0, _, result => result
  | levels + 1, tasks, result =>
    if tasks.isEmpty then result
    else
      let outcomes := tasks.map fun task => task.perform plan
      plan.runLevels levels (outcomes.flatMap fun outcome => outcome.tasks plan)
        (outcomes.foldl (fun result outcome => result.record (outcome.group plan)) result)

/-- Runs a plan by a pool of some size, first in, first out, where the machine starts the workers.
No walk along the links of the plan has more nodes than the plan, so there are no more levels than
that. -/
def run (plan : Plan) (machine : Machine) (size : Nat) : Except Error Result :=
  match plan.root with
  | .error error => .error error
  | .ok root =>
    match machine.refusal? (Pool.workers size) with
    | some reason => .error (.workerPool reason)
    | none => .ok (plan.runLevels plan.nodes.length [Task.ofRoot root] .empty)

end Plan

end PathQuery
