/-
This file runs commands over files, on a machine that starts the workers for queries. A
command prints its whole answer at the end or fails without printing anything; only
setting up a project changes files.
-/

import PathQuery.CommandLine.Command
import PathQuery.Plan.Listing
import PathQuery.Project.Descriptions
import PathQuery.Project.Load
import PathQuery.Project.Sample
import PathQuery.Query.Execute
import PathQuery.Query.Parser
import PathQuery.Topology.Listing

namespace PathQuery.CommandLine

/-- The reasons for which a command fails. -/
inductive Failure where
  | query (error : Query.Error)
  | project (error : Project.LoadError)
  | topology (error : Topology.LoadError)
  | plan (error : Plan.Error)
  | invalid (complaints : List Project.Complaint)
  | unwritable (error : Project.WriteError)

namespace Failure

/-- The failure of a query that has no result. -/
def ofQuery : Query.Failure → Failure
  | .load error => topology error
  | .plan error => plan error

/-- The message for a failure. -/
def message : Failure → String
  | query error => error.message
  | project error => error.message
  | topology (.schema error) => error.message
  | topology (.topology error) => error.message
  | plan error => error.message
  | invalid complaints => Config.complaintsMessage (complaints.map Project.Complaint.message)
  | unwritable error => error.message

end Failure

/-- What a command leaves behind: the files, and what it prints unless it fails. -/
structure Outcome where
  files : Files
  printed : Except Failure String

/-- The type that a text mentions. A dot sets off the namespace. -/
def mentionOf (text : String) : TypeMention :=
  match Text.splitFirst '.' text.toList with
  | some (space, name) => .qualified (String.ofList space) (String.ofList name)
  | none => .bare text

/-- Loads a project. -/
def loadProject (files : Files) (config : Option String) : Except Failure Project :=
  (Project.load files config).mapError .project

/-- Loads the topology of a project. -/
def loadTopology (files : Files) (config : Option String) : Except Failure Topology := do
  let project ← loadProject files config
  (Reader.topology project.readers).mapError .topology

/-- Answers a query. The size of the pool, the verbosity and the format may be given, and are those
of the configuration otherwise. -/
def answer (machine : Machine) (files : Files) (text : String) (config : Option String)
    (poolSize : Option Nat) (isDebug : Bool) (output : Option OutputFormat) :
    Except Failure String := do
  let query ← (Query.parse text).mapError .query
  let project ← loadProject files config
  let size := poolSize.getD project.loaded.config.poolSize
  let result ← (query.result project.readers machine size).mapError .ofQuery
  let verbosity := if isDebug then .debug else project.loaded.config.verbosity
  .ok (result.rendered verbosity (output.getD project.loaded.config.output))

/-- Lists the plan of a query. -/
def explain (files : Files) (text : String) (config : Option String) : Except Failure String := do
  let query ← (Query.parse text).mapError .query
  let project ← loadProject files config
  let plan ← (query.plan project.readers).mapError .ofQuery
  .ok plan.listing

/-- Tells that a project is valid. -/
def validReport (project : Project) (topology : Topology) : String :=
  "OK: " ++ project.loaded.path.getD "defaults" ++ " (" ++
    toString project.directories.length ++ " readers, " ++
    toString topology.types.size ++ " types, " ++ toString topology.links.length ++ " links)\n"

/-- Validates a project. -/
def validate (files : Files) (config : Option String) : Except Failure String := do
  let project ← loadProject files config
  match project.complaints with
  | [] => do
    let topology ← (Reader.topology project.readers).mapError .topology
    .ok (validReport project topology)
  | complaints => .error (.invalid complaints)

/-- Lists all types, or what is known of those that a text names. -/
def listTypes (files : Files) (name config : Option String) : Except Failure String := do
  let topology ← loadTopology files config
  match name with
  | none => .ok topology.typeList
  | some name => (topology.typeDetail name).mapError fun error => .topology (.topology error)

/-- Lists the shortest path between two types. -/
def listPath (files : Files) (source target : String) (config : Option String) :
    Except Failure String := do
  let topology ← loadTopology files config
  (topology.pathDetail (mentionOf source) (mentionOf target)).mapError .plan

/-- Sets up a project. -/
def setUp (files : Files) (path : String) : Outcome :=
  match Project.setUp files path with
  | (files, none) => ⟨files, .ok (Project.setUpReport path)⟩
  | (files, some error) => ⟨files, .error (.unwritable error)⟩

/-- Runs a command. Scripts for completion are no part of this, so their command prints nothing. -/
def Command.run (machine : Machine) (files : Files) : Command → Outcome
  | query text config poolSize isDebug output =>
    ⟨files, answer machine files text config poolSize isDebug output⟩
  | plan text config => ⟨files, explain files text config⟩
  | validate config => ⟨files, CommandLine.validate files config⟩
  | types name config => ⟨files, listTypes files name config⟩
  | path source target config => ⟨files, listPath files source target config⟩
  | init directory => setUp files directory
  | schema => ⟨files, .ok Project.descriptions⟩
  | completions _ => ⟨files, .ok ""⟩

end PathQuery.CommandLine
