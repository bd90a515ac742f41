/-
This file defines patterns for the names of files. A pattern is read to a list of signs;
it matches a text if, after all signs in turn have taken their share, nothing may be left
of the text. What may be left is a set, so no choice of a share is ever undone.
-/

import PathQuery.Document.Mismatch
import PathQuery.Text.Letters

namespace PathQuery.Glob

/-- The reasons for refusing a pattern, with the position of the character at fault. -/
inductive Fault where
  | wildcards (position : Nat)
  | recursion (position : Nat)
  | range (position : Nat)
  deriving DecidableEq

namespace Fault

/-- The position of the character at fault. -/
def position : Fault → Nat
  | wildcards position => position
  | recursion position => position
  | range position => position

/-- What is wrong with a pattern. -/
def reason : Fault → String
  | wildcards _ =>
    "wildcards are either regular " ++ Document.marked "*" ++ " or recursive " ++
      Document.marked "**"
  | recursion _ => "recursive wildcards must form a single path component"
  | range _ => "invalid range pattern"

/-- The message for a fault. -/
def message (fault : Fault) : String :=
  "Pattern syntax error near position " ++ toString fault.position ++ ": " ++ fault.reason

end Fault

/-- The characters from one to another one, both included. -/
structure Range where
  first : Char
  last : Char
  deriving DecidableEq

/-- Whether a character lies in a range. -/
def Range.contains (range : Range) (letter : Char) : Bool :=
  range.first ≤ letter && letter ≤ range.last

/-- The signs of a pattern. -/
inductive Sign where
  | letter (letter : Char)
  | anyLetter
  | letterOf (ranges : List Range)
  | letterNotOf (ranges : List Range)
  | anyText
  | anyDirectories
  deriving DecidableEq

/-- The character that a sign stands for, if there is only one. -/
def Sign.letter? : Sign → Option Char
  | letter character => some character
  | _ => none

/-- A pattern, sign by sign. -/
abbrev Pattern := List Sign

namespace Pattern

/-! ### Reading a pattern -/

/-- The ranges that are written between brackets. -/
def rangesOf : List Char → List Range
  | first :: '-' :: last :: rest => ⟨first, last⟩ :: rangesOf rest
  | letter :: rest => ⟨letter, letter⟩ :: rangesOf rest
  | [] => []

/-- What is written up to a closing bracket, which is not the first character, and what follows
it. -/
def bracketed? : List Char → Option (List Char × List Char)
  | [] => none
  | first :: rest =>
    match rest.dropWhile (· != ']') with
    | _ :: after => some (first :: rest.takeWhile (· != ']'), after)
    | [] => none

/-- What follows a closing bracket is shorter than the text before it was. -/
theorem length_of_bracketed? {letters inner after : List Char}
    (found : bracketed? letters = some (inner, after)) : after.length < letters.length := by
  cases letters with
  | nil => simp [bracketed?] at found
  | cons first rest =>
    have fewer : (rest.dropWhile (· != ']')).length ≤ rest.length :=
      (List.dropWhile_sublist _).length_le
    cases dropped : rest.dropWhile (· != ']') with
    | nil => simp [bracketed?, dropped] at found
    | cons _ later =>
      simp only [bracketed?, dropped, Option.some.injEq, Prod.mk.injEq] at found
      rw [dropped] at fewer
      rw [← found.2]
      simp only [List.length_cons] at fewer ⊢
      omega

/-- Reads the signs of a pattern from a position on. Two stars stand for directories only where a
stroke or an end of the pattern is on either side of them. -/
def readFrom (position : Nat) (before : Option Char) :
    List Char → Except Fault Pattern
  | [] => .ok []
  | '?' :: rest => (readFrom (position + 1) (some '?') rest).map (.anyLetter :: ·)
  | '*' :: '*' :: '*' :: _ => .error (.wildcards (position + 2))
  | '*' :: '*' :: rest =>
    if before.all (· == '/') then
      match rest with
      | [] => .ok [.anyDirectories]
      | '/' :: rest => (readFrom (position + 3) (some '/') rest).map (.anyDirectories :: ·)
      | _ => .error (.recursion (position + 2))
    else .error (.recursion (position - 1))
  | '*' :: rest => (readFrom (position + 1) (some '*') rest).map (.anyText :: ·)
  | '[' :: '!' :: rest =>
    match found : bracketed? rest with
    | none => .error (.range position)
    | some (inner, after) =>
      have := length_of_bracketed? found
      (readFrom (position + inner.length + 3) (some ']') after).map
        (.letterNotOf (rangesOf inner) :: ·)
  | '[' :: rest =>
    match found : bracketed? rest with
    | none => .error (.range position)
    | some (inner, after) =>
      have := length_of_bracketed? found
      (readFrom (position + inner.length + 2) (some ']') after).map
        (.letterOf (rangesOf inner) :: ·)
  | letter :: rest => (readFrom (position + 1) (some letter) rest).map (.letter letter :: ·)
termination_by letters => letters.length

/-- Reads a pattern. -/
def ofText (text : String) : Except Fault Pattern := readFrom 0 none text.toList

/-! ### Matching a text -/

/-- The text that a pattern without any choice stands for. -/
def plain? (pattern : Pattern) : Option String :=
  (pattern.mapM Sign.letter?).map String.ofList

/-- Whether a pattern reaches into directories. -/
def isRecursive (pattern : Pattern) : Bool := pattern.contains .anyDirectories

/-- A text and all that is left of it when characters are taken from its front. -/
def suffixes : List Char → List (List Char)
  | [] => [[]]
  | letter :: rest => (letter :: rest) :: suffixes rest

/-- What is left of a text after each stroke in it. -/
def afterStrokes : List Char → List (List Char)
  | [] => []
  | letter :: rest => if letter = '/' then rest :: afterStrokes rest else afterStrokes rest

/-- What may be left of a text after a sign that takes one character. -/
def takeLetter (accepts : Char → Bool) : List Char → Option (List Char)
  | [] => none
  | letter :: rest => if accepts letter then some rest else none

/-- What may be left after a sign, given what may be left before it, the longest first. -/
def step (left : List (List Char)) : Sign → List (List Char)
  | .letter letter => left.filterMap (takeLetter (· == letter))
  | .anyLetter => left.filterMap (takeLetter fun _ => true)
  | .letterOf ranges => left.filterMap (takeLetter fun letter => ranges.any (·.contains letter))
  | .letterNotOf ranges =>
    left.filterMap (takeLetter fun letter => !ranges.any (·.contains letter))
  | .anyText => (left.head?.map suffixes).getD []
  | .anyDirectories => (left.flatMap fun rest => rest :: afterStrokes rest).eraseDups

/-- Whether a pattern matches a whole text. -/
def matchesText (pattern : Pattern) (text : String) : Bool :=
  (pattern.foldl step [text.toList]).any List.isEmpty

end Pattern

end PathQuery.Glob
