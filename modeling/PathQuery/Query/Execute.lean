/-
This file answers queries from readers: the topology of the readers is loaded, the query
is compiled to a plan, and the plan is run. Each of these can fail, the last one where its
workers are not started; what goes wrong in a run after that is part of its result.
-/

import PathQuery.Plan.Compile
import PathQuery.Run.Schedule

namespace PathQuery.Query

/-- The reasons for which a query has no result. -/
inductive Failure where
  | load (error : Topology.LoadError)
  | plan (error : Plan.Error)

/-- The plan of a query over the topology of readers. -/
def plan (query : Query) (readers : List Reader) : Except Failure Plan :=
  match Reader.topology readers with
  | .error error => .error (.load error)
  | .ok topology =>
    match Plan.compile query topology readers with
    | .error error => .error (.plan error)
    | .ok plan => .ok plan

/-- The result of a query over readers, by a pool of some size. -/
def result (query : Query) (readers : List Reader) (machine : Machine) (size : Nat) :
    Except Failure Result := do
  let plan ← query.plan readers
  match plan.run machine size with
  | .error error => .error (.plan error)
  | .ok result => .ok result

end PathQuery.Query
