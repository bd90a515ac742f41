/-
This file matches arguments against the grammar of a command. The value of an option may
follow as an argument of its own; it is held back and read when the next option or word
has been recognized, so an argument that is not known at all is refused before it.
-/

import PathQuery.CommandLine.Grammar
import PathQuery.Text.Split

namespace PathQuery.CommandLine

/-! ### What has been matched -/

/-- An option or a place with the texts that are held back for it. -/
structure Held where
  name : String
  kind : Kind
  isRepeated : Bool
  texts : List String
  deriving DecidableEq

/-- The arguments matched so far: the values under the names of their options and places, what is
held back, whether a value for an option is awaited, and the number of places that are filled. -/
structure Matching where
  values : List (String × Value)
  held : Option Held
  awaits : Bool
  filled : Nat
  deriving DecidableEq

namespace Matching

/-- The matching before any argument. -/
def start : Matching := ⟨[], none, false, 0⟩

/-- The values under a name, in order. -/
def valuesOf (matching : Matching) (name : String) : List Value :=
  (matching.values.filter (·.1 == name)).map (·.2)

/-- Whether there is a value under a name. -/
def has (matching : Matching) (name : String) : Bool := !(matching.valuesOf name).isEmpty

/-- Adds values under a name. Only a place for many words may get values twice. -/
def add (matching : Matching) (name : String) (isRepeated : Bool) (values : List Value) :
    Except Refusal Matching :=
  if !isRepeated && matching.has name then .error .repeated
  else .ok { matching with values := matching.values ++ values.map fun value => (name, value) }

/-- Reads texts as the values of an option or a place. -/
def take (matching : Matching) (held : Held) : Except Refusal Matching :=
  if held.texts.isEmpty then .error .badValue
  else if !held.isRepeated && matching.has held.name then .error .repeated
  else do
    let values ← held.texts.mapM held.kind.read
    matching.add held.name held.isRepeated values

/-- Reads what is held back. -/
def settle (matching : Matching) : Except Refusal Matching :=
  match matching.held with
  | none => .ok { matching with awaits := false }
  | some held => { matching with held := none, awaits := false }.take held

/-- Meets an option without a value of its own. -/
def meet (matching : Matching) (switch : Switch) : Except Refusal Matching := do
  let matching ← matching.settle
  match switch.effect with
  | .help => .error .help
  | .version => .error .version
  | .mark => matching.add switch.name false [.text "true"]
  | .value kind =>
    .ok { matching with held := some ⟨switch.name, kind, false, []⟩, awaits := true }

/-- Meets an option together with its value. -/
def meetWith (matching : Matching) (switch : Switch) (text : String) : Except Refusal Matching :=
  match switch.effect with
  | .value kind => do
    let matching ← matching.settle
    matching.take ⟨switch.name, kind, false, [text]⟩
  | _ => .error .valueForFlag

/-! ### Arguments -/

/-- Meets an option by its name, which a value may follow after an equals sign. -/
def meetNamed (matching : Matching) (grammar : Grammar) (letters : List Char) :
    Except Refusal Matching :=
  let (name, value) :=
    match Text.splitFirst '=' letters with
    | some (name, value) => (name, some value)
    | none => (letters, none)
  match grammar.named? (String.ofList name) with
  | none => .error .unknownArgument
  | some switch =>
    match value with
    | some value => matching.meetWith switch (String.ofList value)
    | none => matching.meet switch

/-- Meets options by their letters. What follows the letter of an option that takes a value is the
value, with or without an equals sign. -/
def meetLettered (matching : Matching) (grammar : Grammar) : List Char → Except Refusal Matching
  | [] => .ok matching
  | letter :: rest =>
    match grammar.lettered? letter with
    | none => .error .unknownArgument
    | some switch =>
      match switch.effect, rest with
      | .value _, '=' :: value => matching.meetWith switch (String.ofList value)
      | .value _, first :: value => matching.meetWith switch (String.ofList (first :: value))
      | _, _ => do
        let matching ← matching.meet switch
        matching.meetLettered grammar rest

/-- Holds back a word for a place. -/
def hold (matching : Matching) (place : Place) (word : String) : Matching :=
  { matching with
    held := some ⟨place.name, place.kind, place.isRepeated, [word]⟩
    awaits := false
    filled := if place.isRepeated then matching.filled else matching.filled + 1 }

/-- Gives a word to the next place. -/
def fill (matching : Matching) (grammar : Grammar) (word : String) : Except Refusal Matching :=
  match grammar.places[matching.filled]? with
  | none => .error .unknownArgument
  | some place =>
    match matching.held with
    | some held =>
      if place.isRepeated && held.name == place.name then
        .ok { matching with held := some { held with texts := held.texts ++ [word] } }
      else do
        let matching ← matching.settle
        .ok (matching.hold place word)
    | none => .ok (matching.hold place word)

/-- Meets an argument, or gives it to the option that awaits a value, or to the next place. -/
def meetArgument (matching : Matching) (grammar : Grammar) (argument : String) :
    Except Refusal Matching :=
  match argument.toList, matching.awaits, matching.held with
  | '-' :: '-' :: name, _, _ => matching.meetNamed grammar name
  | '-' :: letter :: rest, _, _ => matching.meetLettered grammar (letter :: rest)
  | _, true, some held =>
    .ok { matching with held := some { held with texts := [argument] }, awaits := false }
  | _, _, _ => matching.fill grammar argument

/-- Meets arguments. After two dashes alone all arguments are words. -/
def meetAll (matching : Matching) (grammar : Grammar) (isTrailing : Bool) :
    List String → Except Refusal Matching
  | [] => matching.settle
  | argument :: rest =>
    if isTrailing then do
      let matching ← matching.fill grammar argument
      matching.meetAll grammar true rest
    else if argument = "--" then matching.meetAll grammar true rest
    else do
      let matching ← matching.meetArgument grammar argument
      matching.meetAll grammar false rest

/-- Takes the configuration from the environment where no option names it. -/
def withEnvironment (matching : Matching) (grammar : Grammar) (config : Option String) :
    Except Refusal Matching :=
  match config, (grammar.named? configName).isSome && !matching.has configName with
  | some path, true => matching.take ⟨configName, .path, false, [path]⟩
  | _, _ => .ok matching

/-- Matches all arguments of a command, of which none that is required may be missing. -/
def ofArguments (grammar : Grammar) (config : Option String) (arguments : List String) :
    Except Refusal Matching := do
  let matching ← start.meetAll grammar false arguments
  let matching ← matching.withEnvironment grammar config
  if grammar.places.any fun place => place.isRequired && !matching.has place.name then
    .error .missingArgument
  else .ok matching

end Matching

end PathQuery.CommandLine
