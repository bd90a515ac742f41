/-
This file defines the configuration: where the readers are, how many workers a run may
have, and how results are shown. It is read from a YAML document that has no fields but
these, each with a value of its own where it is left out.
-/

import PathQuery.Glob.Pattern
import PathQuery.Result.Rendered
import PathQuery.Yaml.Form

namespace PathQuery

/-- The configuration. Readers are given by patterns for their directories. -/
structure Config where
  readers : List String
  poolSize : Nat
  verbosity : Verbosity
  output : OutputFormat
  deriving DecidableEq

namespace Config

/-- The number of workers where none is given. -/
def usualPoolSize : Nat := 10

/-- The configuration in which nothing is given. -/
def usual : Config := ⟨[], usualPoolSize, .normal, .yaml⟩

/-- The form of the configuration. -/
def form : Yaml.Form Config where
  name := "Config"
  isOpen := false
  start := usual
  fields := [
    .of "readers" false (Yaml.list Yaml.text) fun readers config => { config with readers },
    .of "pool_size" false Yaml.word fun poolSize config => { config with poolSize },
    .of "verbosity" false (Yaml.choice Verbosity.named) fun verbosity config =>
      { config with verbosity },
    .of "output" false (Yaml.choice OutputFormat.named) fun output config =>
      { config with output }]

/-- Reads a configuration. -/
def ofText (content : String) : Except Yaml.Fault Config := form.document content

/-! ### Validation -/

/-- What is wrong with a configuration that can be read. -/
inductive Complaint where
  | noWorkers
  | blankReader (index : Nat)
  | badReader (index : Nat) (pattern : String) (fault : Glob.Fault)
  deriving DecidableEq

/-- The message for a complaint. -/
def Complaint.message : Complaint → String
  | noWorkers => "pool_size must be at least 1"
  | blankReader index => "readers[" ++ toString index ++ "] is empty"
  | badReader index pattern fault =>
    "readers[" ++ toString index ++ "] \"" ++ pattern ++ "\" is not a valid pattern: " ++
      fault.message

/-- The complaint about one pattern for readers, if there is one. -/
def patternComplaint? (pattern : String) (index : Nat) : Option Complaint :=
  if Text.isBlankText pattern then some (.blankReader index)
  else
    match Glob.Pattern.ofText pattern with
    | .ok _ => none
    | .error fault => some (.badReader index pattern fault)

/-- All complaints about a configuration. -/
def complaints (config : Config) : List Complaint :=
  (if config.poolSize = 0 then [.noWorkers] else []) ++
    config.readers.zipIdx.filterMap fun (pattern, index) => patternComplaint? pattern index

end Config

end PathQuery
