/-
This file defines runs by a pool of workers. A task is queued until a worker takes it; the
worker asks the reader of its node, and what the task brings waits for the one aggregator,
which records the group, queues the further tasks and counts the tasks that are outstanding.
The run is over when the count is zero. Which queued task is taken, which worker is done
first and what a reader answers is free.
-/

import PathQuery.Run.Schedule

namespace PathQuery

/-- What a task brings where the reader of its node gives an answer. Without a node no reader is
asked. -/
def Task.answered (plan : Plan) (task : Task) (answer : Answer) : Outcome :=
  match plan.node? task.node with
  | none => ⟨task, [], some (Plan.Error.unknownNode task.node).message⟩
  | some _ => ⟨task, answer.parts.1, answer.parts.2⟩

/-- A run under way in a pool: the tasks that no worker has taken, those that workers are at, what
tasks have brought that is not aggregated, the count of outstanding tasks, and the groups recorded
so far. -/
structure Pool where
  queued : List Task
  running : List Task
  brought : List Outcome
  outstanding : Nat
  result : Result

namespace Pool

/-- The pool in which the root task is queued. -/
def start (root : Plan.Node) : Pool :=
  ⟨[Task.ofRoot root], [], [], 1, .empty⟩

/-- A step of a pool, where readers may give some answers to a task and others not: a free worker
takes a queued task, a worker sends what a task has brought, or the aggregator, unless the count is
zero, aggregates what has come first. -/
inductive Step (plan : Plan) (size : Nat) (answers : Task → Answer → Prop) :
    Pool → Pool → Prop where
  | take (before after running : List Task) (task : Task) (brought : List Outcome)
    (outstanding : Nat) (result : Result) : running.length < workers size →
    Step plan size answers ⟨before ++ task :: after, running, brought, outstanding, result⟩
      ⟨before ++ after, running ++ [task], brought, outstanding, result⟩
  | send (queued before after : List Task) (task : Task) (answer : Answer) (brought : List Outcome)
    (outstanding : Nat) (result : Result) : answers task answer →
    Step plan size answers ⟨queued, before ++ task :: after, brought, outstanding, result⟩
      ⟨queued, before ++ after, brought ++ [task.answered plan answer], outstanding, result⟩
  | aggregate (queued running : List Task) (outcome : Outcome) (brought : List Outcome)
    (outstanding : Nat) (result : Result) : 0 < outstanding →
    Step plan size answers ⟨queued, running, outcome :: brought, outstanding, result⟩
      ⟨queued ++ outcome.tasks plan, running, brought,
        outstanding - 1 + (outcome.tasks plan).length, result.record (outcome.group plan)⟩

end Pool

end PathQuery
