/-
This file names what can come of arguments other than a command: they are refused, or
they ask for a text about the program.
-/

namespace PathQuery.CommandLine

/-- Why arguments do not give a command. -/
inductive Refusal where
  | help
  | version
  | nothingAsked
  | unknownCommand
  | unknownArgument
  | missingArgument
  | badValue
  | badNumber
  | repeated
  | valueForFlag
  deriving DecidableEq

namespace Refusal

/-- Whether a text about the program was asked for. -/
def isRequest : Refusal → Bool
  | help => true
  | version => true
  | _ => false

/-- How the program is called. -/
def usage : String := "Usage: topoquery <COMMAND>"

/-- The version of the program. -/
def versionText : String := "topoquery 0.3.0"

/-- What is told instead of running a command. -/
def message : Refusal → String
  | help => usage
  | version => versionText
  | nothingAsked => usage
  | unknownCommand => "error: there is no such command"
  | unknownArgument => "error: an argument is not known"
  | missingArgument => "error: an argument is missing"
  | badValue => "error: a value is not one of those that are possible"
  | badNumber => "error: a value is not a number"
  | repeated => "error: an option is given more than once"
  | valueForFlag => "error: an option takes no value"

end Refusal

end PathQuery.CommandLine
