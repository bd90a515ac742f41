/-
This file defines what arguments a command takes: options, which go by a name or a
letter, and words, which go by their places.
-/

import PathQuery.CommandLine.Refusal
import PathQuery.Result.Rendered
import PathQuery.Text.Letters

namespace PathQuery.CommandLine

/-! ### Values -/

/-- The values that arguments stand for. -/
inductive Value where
  | text (value : String)
  | number (value : Nat)
  | format (value : OutputFormat)
  deriving DecidableEq

/-- What a value may be. -/
inductive Kind where
  | word
  | path
  | number
  | format
  | shell
  deriving DecidableEq

/-- The shells for which completions can be written. -/
def shells : List String := ["bash", "elvish", "fish", "powershell", "zsh"]

/-- The number of a machine word that is written in base ten, with or without a plus sign. -/
def number? (text : String) : Option Nat :=
  let digits :=
    match text.toList with
    | '+' :: rest => rest
    | letters => letters
  (Text.natural? 10 digits).filter (· < Nat.pow 2 64)

/-- Reads a value. A path must not be empty. -/
def Kind.read (kind : Kind) (text : String) : Except Refusal Value :=
  match kind with
  | word => .ok (.text text)
  | path => if text.isEmpty then .error .badValue else .ok (.text text)
  | number =>
    match number? text with
    | some value => .ok (.number value)
    | none => .error .badNumber
  | format =>
    match OutputFormat.named.lookup text with
    | some value => .ok (.format value)
    | none => .error .badValue
  | shell => if shells.contains text then .ok (.text text) else .error .badValue

/-! ### Options and places -/

/-- What an option does: it asks for help or for the version, it is a mark, or it takes a value. -/
inductive Effect where
  | help
  | version
  | mark
  | value (kind : Kind)
  deriving DecidableEq

/-- An option: the name after two dashes, the letter after one dash, and what it does. -/
structure Switch where
  name : String
  letter : Option Char
  effect : Effect
  deriving DecidableEq

/-- A place for words. It may take any number of them, and it may have to be filled. -/
structure Place where
  name : String
  kind : Kind
  isRequired : Bool
  isRepeated : Bool
  deriving DecidableEq

/-- The arguments of a command. The last place alone may be repeated. -/
structure Grammar where
  switches : List Switch
  places : List Place
  deriving DecidableEq

/-- The option that asks for help. -/
def helpSwitch : Switch := ⟨"help", some 'h', .help⟩

/-- The option that asks for the version. -/
def versionSwitch : Switch := ⟨"version", some 'V', .version⟩

/-- The name of the option for the configuration. -/
def configName : String := "config"

/-- The option for the configuration. -/
def configSwitch : Switch := ⟨configName, some 'c', .value .path⟩

/-- The place for the words of a query. -/
def queryPlace : Place := ⟨"query", .word, true, true⟩

/-- The commands, each with its arguments. -/
def grammars : List (String × Grammar) :=
  [("query",
      ⟨[configSwitch, ⟨"pool-size", some 'j', .value .number⟩, ⟨"debug", none, .mark⟩,
        ⟨"output", some 'o', .value .format⟩, helpSwitch], [queryPlace]⟩),
    ("plan", ⟨[configSwitch, helpSwitch], [queryPlace]⟩),
    ("validate", ⟨[configSwitch, helpSwitch], []⟩),
    ("types", ⟨[configSwitch, helpSwitch], [⟨"name", .word, false, false⟩]⟩),
    ("path",
      ⟨[configSwitch, helpSwitch], [⟨"from", .word, true, false⟩, ⟨"to", .word, true, false⟩]⟩),
    ("init", ⟨[helpSwitch], [⟨"path", .path, false, false⟩]⟩),
    ("schema", ⟨[helpSwitch], []⟩),
    ("completions", ⟨[helpSwitch], [⟨"shell", .shell, true, false⟩]⟩)]

namespace Grammar

/-- The option of a name. -/
def named? (grammar : Grammar) (name : String) : Option Switch :=
  grammar.switches.find? (·.name == name)

/-- The option of a letter. -/
def lettered? (grammar : Grammar) (letter : Char) : Option Switch :=
  grammar.switches.find? (·.letter == some letter)

end Grammar

end PathQuery.CommandLine
