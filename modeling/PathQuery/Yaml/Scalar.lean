/-
This file writes texts as scalars. A text stands as it is where it is read back as
itself; otherwise it is quoted, by single quotes if they are enough. A text of several
lines is written as a block, each line indented, as far as a block can hold it.
-/

import PathQuery.Yaml.Plain
import PathQuery.Yaml.Token

namespace PathQuery.Yaml

/-! ### What a text holds -/

/-- The characters that no unquoted scalar starts with. -/
def startIndicators : List Char :=
  ['#', ',', '[', ']', '\x7b', '\x7d', '&', '*', '!', '|', '>', '\'', '"', '%', '@', '\u0060']

/-- Whether the first character of a text would be read as a mark of the format. -/
def startsAsMark : List Char → Bool
  | [] => false
  | letter :: rest =>
    startIndicators.contains letter || (['?', ':', '-'].contains letter && gapFollows rest)

/-- Whether a text starts with the mark for the start or the end of a document. -/
def startsAsDocument (letters : List Char) : Bool :=
  "---".toList.isPrefixOf letters || "...".toList.isPrefixOf letters

/-- Whether a later character of a text would be read as a mark of the format: a colon before a
gap, or a number sign after one. -/
def marksLater : List Char → Bool
  | before :: letter :: rest =>
    (letter == ':' && gapFollows rest) || (letter == '#' && isGap before) ||
      marksLater (letter :: rest)
  | _ => false

/-- Whether two neighbouring characters of a text have given properties. -/
def hasNeighbours (first second : Char → Bool) : List Char → Bool
  | before :: after :: rest =>
    (first before && second after) || hasNeighbours first second (after :: rest)
  | _ => false

/-- Whether a character of a text has a property at one of its ends. -/
def atEnds (property : Char → Bool) (letters : List Char) : Bool :=
  letters.head?.any property || letters.getLast?.any property

/-- Whether a text holds characters that have to be escaped. -/
def hasUnprintable (letters : List Char) : Bool :=
  letters.any fun letter => !isPrintable letter

/-- Whether a text has more than one line. -/
def hasBreak (letters : List Char) : Bool := letters.any isBreak

/-- Whether a character is the space. -/
def isSpace (letter : Char) : Bool := letter == ' '

/-- Whether the form of a text lets it stand unquoted. -/
def allowsPlain (letters : List Char) : Bool :=
  !(startsAsMark letters || startsAsDocument letters || marksLater letters ||
    hasUnprintable letters || hasBreak letters || atEnds isSpace letters)

/-- Whether a text can be quoted without escapes. -/
def allowsSingle (letters : List Char) : Bool :=
  !(hasUnprintable letters || hasNeighbours isSpace isBreak letters ||
    hasNeighbours isBreak isSpace letters)

/-- Whether a text can be written as a block. -/
def allowsBlock (letters : List Char) : Bool :=
  !letters.isEmpty && !(hasUnprintable letters || hasNeighbours isSpace isBreak letters ||
    letters.getLast?.any isSpace)

/-! ### Styles -/

/-- The ways to write a scalar. -/
inductive Style where
  | plain
  | single
  | double
  | block
  deriving DecidableEq

/-- The way in which a text is written. -/
def styleOf (text : String) : Style :=
  let letters := text.toList
  if letters.contains '\n' then if allowsBlock letters then .block else .double
  else if meansItself text && allowsPlain letters then .plain
  else if allowsSingle letters then .single
  else .double

/-- A number of spaces. -/
def indent (width : Nat) : List Char := List.replicate width ' '

/-- Characters with every line after the first indented. An empty line is left empty. -/
def indentLines (width : Nat) : (afterBreak : Bool) → List Char → List Char
  | _, [] => []
  | afterBreak, letter :: rest =>
    if isBreak letter then letter :: indentLines width true rest
    else (if afterBreak then indent width else []) ++ letter :: indentLines width false rest

/-- A text between single quotes, in which a quote is written twice. Its lines are indented. -/
def single (width : Nat) (letters : List Char) : List Char :=
  let doubled := letters.flatMap fun letter => if letter = '\'' then ['\'', '\''] else [letter]
  let closing := if letters.getLast?.any isBreak then indent width else []
  '\'' :: indentLines width false doubled ++ closing ++ ['\'']

/-- The letter that escapes a character, if there is one. -/
def escapeLetter? : Char → Option Char
  | '\x00' => some '0'
  | '\x07' => some 'a'
  | '\x08' => some 'b'
  | '\t' => some 't'
  | '\n' => some 'n'
  | '\x0b' => some 'v'
  | '\x0c' => some 'f'
  | '\r' => some 'r'
  | '\x1b' => some 'e'
  | '"' => some '"'
  | '\\' => some '\\'
  | '\u0085' => some 'N'
  | '\u2028' => some 'L'
  | '\u2029' => some 'P'
  | _ => none

/-- A number in capital hexadecimal digits, filled up with zeros to a width. -/
def hexadecimal (width number : Nat) : List Char :=
  let digits := (Nat.toDigits 16 number).map Char.toUpper
  List.replicate (width - digits.length) '0' ++ digits

/-- The escape of a character by its number, of the least width that holds it. -/
def numberEscape (letter : Char) : List Char :=
  let point := letter.toNat
  if point ≤ 0xff then 'x' :: hexadecimal 2 point
  else if point ≤ 0xffff then 'u' :: hexadecimal 4 point
  else 'U' :: hexadecimal 8 point

/-- A character between double quotes. -/
def doubleLetter (letter : Char) : List Char :=
  match escapeLetter? letter with
  | some escape => ['\\', escape]
  | none => if isPrintable letter then [letter] else '\\' :: numberEscape letter

/-- A text between double quotes. -/
def double (letters : List Char) : List Char :=
  '"' :: letters.flatMap doubleLetter ++ ['"']

/-- The number of spaces by which nested parts are indented. -/
def step : Nat := 2

/-- The sign that tells where the first line of a block starts, needed where that line starts with a
space or is empty. -/
def startSign (letters : List Char) : List Char :=
  if letters.head?.any fun letter => letter == ' ' || isBreak letter then Nat.toDigits 10 step
  else []

/-- The sign that tells how a block ends: without a line break, with one, or with several. -/
def endSign (letters : List Char) : List Char :=
  match letters.reverse with
  | last :: before =>
    if !isBreak last then ['-'] else if before.head?.all isBreak then ['+'] else []
  | [] => ['-']

/-- A text as a block of lines. -/
def block (width : Nat) (letters : List Char) : List Char :=
  '|' :: startSign letters ++ endSign letters ++ '\n' :: indentLines width true letters

/-- A text as a scalar whose further lines are indented. -/
def scalar (width : Nat) (text : String) : List Char :=
  match styleOf text with
  | .plain => text.toList
  | .single => single width text.toList
  | .double => double text.toList
  | .block => block width text.toList

end PathQuery.Yaml
