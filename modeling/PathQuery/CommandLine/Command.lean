/-
This file reads commands from the arguments of a command line.
-/

import PathQuery.CommandLine.Matching
import PathQuery.File.Path

namespace PathQuery.CommandLine

/-- The commands. Each of those that need a project may name its configuration. -/
inductive Command where
  | query (text : String) (config : Option String) (poolSize : Option Nat) (isDebug : Bool)
    (output : Option OutputFormat)
  | plan (text : String) (config : Option String)
  | validate (config : Option String)
  | types (name config : Option String)
  | path (source target : String) (config : Option String)
  | init (path : String)
  | schema
  | completions (shell : String)
  deriving DecidableEq

namespace Matching

/-- The texts under a name. -/
def texts (matching : Matching) (name : String) : List String :=
  (matching.valuesOf name).filterMap fun value =>
    match value with
    | .text value => some value
    | _ => none

/-- The text under a name. -/
def text? (matching : Matching) (name : String) : Option String := (matching.texts name).head?

/-- The number under a name. -/
def number? (matching : Matching) (name : String) : Option Nat :=
  (matching.valuesOf name).findSome? fun value =>
    match value with
    | .number value => some value
    | _ => none

/-- The format under a name. -/
def format? (matching : Matching) (name : String) : Option OutputFormat :=
  (matching.valuesOf name).findSome? fun value =>
    match value with
    | .format value => some value
    | _ => none

/-- The text of a query, whose words may be arguments of their own. -/
def queryText (matching : Matching) : String := " ".intercalate (matching.texts "query")

/-- The command of a name. -/
def command (matching : Matching) (name : String) : Command :=
  let config := matching.text? configName
  match name with
  | "query" =>
    .query matching.queryText config (matching.number? "pool-size") (matching.has "debug")
      (matching.format? "output")
  | "plan" => .plan matching.queryText config
  | "validate" => .validate config
  | "types" => .types (matching.text? "name") config
  | "path" =>
    .path ((matching.text? "from").getD "") ((matching.text? "to").getD "") config
  | "init" => .init ((matching.text? "path").getD ".")
  | "schema" => .schema
  | _ => .completions ((matching.text? "shell").getD "")

end Matching

/-- The command that gives help on commands. -/
def helpName : String := "help"

/-- Whether a text is the name of a command. -/
def isCommandName (text : String) : Bool :=
  text == helpName || (grammars.lookup text).isSome

/-- The arguments before any command. -/
def outerGrammar : Grammar := ⟨[helpSwitch, versionSwitch], []⟩

/-- What becomes of the names after the command for help: one command, or none, can be named. -/
def helpOn : List String → Refusal
  | [] => .help
  | [name] => if isCommandName name then .help else .unknownCommand
  | _ => .unknownCommand

namespace Command

/-- The directories outside of the working directory that a command may need. -/
def directories : Command → List String
  | query _ config _ _ _ => directoryOf config
  | plan _ config => directoryOf config
  | validate config => directoryOf config
  | types _ config => directoryOf config
  | path _ _ config => directoryOf config
  | init directory => [directory]
  | schema => []
  | completions _ => []
where
  /-- The directory of a configuration. -/
  directoryOf (config : Option String) : List String :=
    (config.bind File.Path.parent?).toList.filter (!·.isEmpty)

/-- Reads a command of a name and its arguments. -/
def ofName (config : Option String) (name : String) (arguments : List String) :
    Except Refusal Command :=
  if name = helpName then .error (helpOn arguments)
  else
    match grammars.lookup name with
    | none => .error .unknownCommand
    | some grammar => do
      let matching ← Matching.ofArguments grammar config arguments
      .ok (matching.command name)

/-- Reads a command from arguments. The configuration may also be named by the environment. -/
def ofArguments (config : Option String) : List String → Except Refusal Command
  | [] => .error .nothingAsked
  | ["--"] => .error .nothingAsked
  | "--" :: word :: _ => .error (if isCommandName word then .unknownArgument else .unknownCommand)
  | argument :: rest =>
    match argument.toList with
    | '-' :: _ :: _ => do
      let _ ← Matching.start.meetArgument outerGrammar argument
      .error .unknownCommand
    | _ => ofName config argument rest

end Command

end PathQuery.CommandLine
