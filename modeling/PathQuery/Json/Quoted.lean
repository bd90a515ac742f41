/-
This file reads quoted texts. A backslash starts an escape; characters beyond the first
65536 are escaped as a pair of halves, which must be whole where the text is kept. Where
a text is only passed over, its halves are not looked at.
-/

import PathQuery.Json.Taken
import PathQuery.Text.Letters

namespace PathQuery.Json

/-- The number of bytes that the digits of an escape take. -/
def hexEscapeBytes : Nat := 4

/-- Reads the four digits of an escape by number. -/
def hexUnit : Reading Nat
  | first :: second :: third :: fourth :: rest =>
    match Text.digit? 16 first, Text.digit? 16 second, Text.digit? 16 third,
        Text.digit? 16 fourth with
    | some a, some b, some c, some d =>
      .ok ⟨((a * 16 + b) * 16 + c) * 16 + d, rest, by simp only [List.length_cons]; omega⟩
    | _, _, _, _ =>
      .error (Fault.badEscape.after hexEscapeBytes (first :: second :: third :: fourth :: rest))
  | input =>
    if Text.byteSize input < hexEscapeBytes then .error (Fault.ends .text).atEnd
    else .error (Fault.badEscape.after hexEscapeBytes input)

/-- Whether a unit is the first half of a pair. -/
def isFirstHalf (unit : Nat) : Bool := 0xd800 ≤ unit && unit < 0xdc00

/-- Whether a unit is the second half of a pair. -/
def isSecondHalf (unit : Nat) : Bool := 0xdc00 ≤ unit && unit < 0xe000

/-- The character that two halves make up. -/
def joinedHalves (first second : Nat) : Char :=
  Char.ofNat (0x10000 + (first - 0xd800) * 0x400 + (second - 0xdc00))

/-- Reads the second half of a pair, which is an escape of its own. -/
def secondHalf (first : Nat) : Reading Char
  | [] => .error (Fault.ends .text).atEnd
  | ['\\'] => .error (Fault.ends .text).atEnd
  | '\\' :: 'u' :: input => do
    let taken ← hexUnit input
    if isSecondHalf taken.value then
      .ok ((taken.map (joinedHalves first)).within (by simp only [List.length_cons]; omega))
    else .error (Fault.halfPair.before taken.rest)
  | '\\' :: input => .error (Fault.brokenPair.past input)
  | input => .error (Fault.brokenPair.past input)

/-- Reads an escape by number: one unit, or two that make up a character. -/
def numberedLetter : Reading Char := fun input => do
  let taken ← hexUnit input
  if isSecondHalf taken.value then .error (Fault.halfPair.before taken.rest)
  else if isFirstHalf taken.value then
    let pair ← secondHalf taken.value taken.rest
    .ok (pair.within (Nat.le_of_lt taken.shorter))
  else .ok (taken.map Char.ofNat)

/-- The character that a single letter stands for after a backslash. -/
def escapedLetter? : Char → Option Char
  | '"' => some '"'
  | '\\' => some '\\'
  | '/' => some '/'
  | 'b' => some '\x08'
  | 'f' => some '\x0c'
  | 'n' => some '\n'
  | 'r' => some '\r'
  | 't' => some '\t'
  | _ => none

/-- Reads what follows a backslash; an escape by number is read in the way given. -/
def escape (numbered : Reading Char) : Reading Char
  | [] => .error (Fault.ends .text).atEnd
  | 'u' :: input => do
    let taken ← numbered input
    .ok (taken.afterLetter 'u')
  | letter :: input =>
    match escapedLetter? letter with
    | some meant => .ok (.ofLetter meant letter input)
    | none => .error (Fault.badEscape.past (letter :: input))

/-- How a quoted text is gone through: how an escape by number is read, and where it is told that a
text goes on with a control character. -/
structure Care where
  numbered : Reading Char
  control : (input : List Char) → Stop

/-- The care for a text that is kept. -/
def Care.kept : Care := ⟨numberedLetter, Fault.controlCharacter.past⟩

/-- The care for a text that is passed over. -/
def Care.skipped : Care where
  numbered input := do
    let taken ← hexUnit input
    .ok (taken.map Char.ofNat)
  control := Fault.controlCharacter.before

/-- Reads one character of a quoted text, or its closing quote. -/
def quotedStep (care : Care) : Reading (Option Char)
  | [] => .error (Fault.ends .text).atEnd
  | '"' :: input => .ok (.ofLetter none '"' input)
  | '\\' :: input => do
    let taken ← escape care.numbered input
    .ok ((taken.map some).afterLetter '\\')
  | letter :: input =>
    if letter.toNat < 0x20 then .error (care.control (letter :: input))
    else .ok (.ofLetter (some letter) letter input)

/-- Reads a quoted text from after its opening quote to after its closing one. -/
def quotedLetters (care : Care) (input : List Char) : Except Stop (Taken (List Char) input) :=
  match quotedStep care input with
  | .error stop => .error stop
  | .ok ⟨none, rest, shorter⟩ => .ok ⟨[], rest, shorter⟩
  | .ok ⟨some letter, rest, shorter⟩ =>
    match quotedLetters care rest with
    | .error stop => .error stop
    | .ok taken => .ok ((taken.map (letter :: ·)).within (Nat.le_of_lt shorter))
termination_by input.length

/-- Reads a quoted text that is kept. -/
def quotedText : Reading String := fun input => do
  let taken ← quotedLetters .kept input
  .ok (taken.map String.ofList)

/-- Passes over a quoted text. -/
def skipQuoted : Reading Unit := fun input => do
  let taken ← quotedLetters .skipped input
  .ok (taken.map fun _ => ())

end PathQuery.Json
