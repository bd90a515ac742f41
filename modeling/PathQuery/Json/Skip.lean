/-
This file passes over a value without keeping it. Values nest to any depth, so what is
open is held in a list; nothing is asked of the value but its form, and a comma before a
closing bracket is found out only by what should follow it.
-/

import PathQuery.Json.Number
import PathQuery.Json.Quoted

namespace PathQuery.Json

open Text (Remaining)

/-- The brackets that a value can be nested in. -/
inductive Bracket where
  | square
  | curly
  deriving DecidableEq

namespace Bracket

/-- The closing character. -/
def closing : Bracket → Char
  | square => ']'
  | curly => '\x7d'

/-- The part of a document that the bracket holds. -/
def part : Bracket → Part
  | square => .array
  | curly => .object

/-- The fault for what follows a value inside the bracket and is neither a comma nor the end. -/
def noComma : Bracket → Fault
  | square => .noCommaOrBracket
  | curly => .noCommaOrBrace

end Bracket

/-- Where the reader stands: before a value or after one. The brackets that are open are listed from
the innermost. -/
structure Standing where
  opened : List Bracket
  expectsValue : Bool

/-- Passes over the name of a member and the colon after it. -/
def skipName : Reading Unit := fun input =>
  match spaced : afterSpace input with
  | [] => .error (Fault.ends .object).atEnd
  | '"' :: further => do
    let ⟨_, rest, shorter⟩ ← skipQuoted further
    match colon : afterSpace rest with
    | [] => .error (Fault.ends .object).atEnd
    | ':' :: value =>
      .ok ⟨(), value, Nat.lt_trans (length_lt_of_afterSpace colon)
        (Nat.lt_trans shorter (length_lt_of_afterSpace spaced))⟩
    | other => .error (Fault.noColon.past other)
  | other => .error (Fault.keyNotText.past other)

/-- Goes on inside a bracket to the next value; in an object its name is passed over. -/
def skipToValue (bracket : Bracket) (input : List Char) : Except Stop (Remaining input) :=
  match bracket with
  | .square => .ok (.all input)
  | .curly => do
    let taken ← skipName input
    .ok taken.remaining

/-- Goes on after an opening bracket: to the first value, or past the closing bracket. -/
def skipOpening (bracket : Bracket) (others : List Bracket) (input : List Char) :
    Except Stop (Standing × Remaining input) :=
  match spaced : afterSpace input with
  | [] => .error (Fault.ends bracket.part).atEnd
  | letter :: further =>
    if letter = bracket.closing then
      .ok (⟨others, false⟩, afterSpaced letter further spaced)
    else do
      let value ← skipToValue bracket input
      .ok (⟨bracket :: others, true⟩, value)

/-- The bracket that a letter opens. -/
def bracketOf? (letter : Char) : Option Bracket :=
  if letter = '[' then some .square else if letter = '\x7b' then some .curly else none

/-- Passes over a value that does not nest, or over an opening bracket. -/
def skipStart (opened : List Bracket) : Reading Standing
  | [] => .error (Fault.ends .value).atEnd
  | letter :: input =>
    match bracketOf? letter, wordOf? letter with
    | some bracket, _ => do
      let (standing, rest) ← skipOpening bracket opened input
      .ok (.ofRemaining standing letter rest)
    | none, some (word, _) => do
      let rest ← afterWord word.toList input
      .ok (.ofRemaining ⟨opened, false⟩ letter rest)
    | none, none =>
      if letter = '"' then do
        let taken ← skipQuoted input
        .ok ((taken.map fun _ => ⟨opened, false⟩).afterLetter letter)
      else if letter = '-' || letter.isDigit then do
        let taken ← skipNumber (letter :: input)
        .ok (taken.map fun _ => ⟨opened, false⟩)
      else .error (Fault.noValue.past (letter :: input))

/-- Goes on after a value inside a bracket: to the next value, or past the closing bracket. -/
def skipOn (bracket : Bracket) (others : List Bracket) : Reading Standing
  | [] => .error (Fault.ends bracket.part).atEnd
  | letter :: input =>
    if letter = ',' then do
      let rest ← skipToValue bracket input
      .ok (.ofRemaining ⟨bracket :: others, true⟩ letter rest)
    else if letter = bracket.closing then .ok (.ofLetter ⟨others, false⟩ letter input)
    else .error (bracket.noComma.past (letter :: input))

/-- Passes over the rest of a value, from where the reader stands in it. -/
def skipRest (standing : Standing) (input : List Char) : Except Stop (Remaining input) :=
  have bound := length_afterSpace_le input
  match standing with
  | ⟨[], false⟩ => .ok (.all input)
  | ⟨bracket :: others, false⟩ =>
    match skipOn bracket others (afterSpace input) with
    | .error stop => .error stop
    | .ok ⟨standing, rest, shorter⟩ =>
      match skipRest standing rest with
      | .error stop => .error stop
      | .ok ⟨rest, fewer⟩ => .ok ⟨rest, by omega⟩
  | ⟨opened, true⟩ =>
    match skipStart opened (afterSpace input) with
    | .error stop => .error stop
    | .ok ⟨standing, rest, shorter⟩ =>
      match skipRest standing rest with
      | .error stop => .error stop
      | .ok ⟨rest, fewer⟩ => .ok ⟨rest, by omega⟩
termination_by input.length

/-- Passes over one value. -/
def skipValue : Reading Unit := fun input => do
  let ⟨standing, rest, shorter⟩ ← skipStart [] (afterSpace input)
  let ⟨rest, fewer⟩ ← skipRest standing rest
  .ok ⟨(), rest, by
    have bound := length_afterSpace_le input
    omega⟩

end PathQuery.Json
