/-
This file reads the texts of scalars. Between the words of a scalar that runs over several
lines stands a gap: a single line break counts as a space, further ones are kept. A block
keeps its lines, less the indentation, or joins those that are not indented further.
-/

import PathQuery.Text.Letters
import PathQuery.Yaml.Token

namespace PathQuery.Yaml

/-! ### Line breaks and gaps -/

/-- A line break as it counts in a text: the two marks that may stand together count once. -/
def asBreak (letter : Char) : Char :=
  if letter = '\r' || letter = '\u0085' then '\n' else letter

/-- Whether a text goes on with the mark for the start or the end of a document. -/
def atDocumentMark : List Char → Bool
  | '-' :: '-' :: '-' :: rest => gapFollows rest
  | '.' :: '.' :: '.' :: rest => gapFollows rest
  | _ => false

/-- What stands between two words of a scalar: blanks, or line breaks. The first break may be left
out by an escape. -/
structure Gap where
  blanks : List Char
  firstBreak : Option (List Char)
  furtherBreaks : List Char

namespace Gap

/-- No gap. -/
def none : Gap := ⟨[], .none, []⟩

/-- The gap after a line break that is left out. -/
def escaped : Gap := ⟨[], some [], []⟩

/-- Whether there is a gap at all. -/
def isNone (gap : Gap) : Bool := gap.blanks.isEmpty && gap.firstBreak.isNone

/-- Whether the gap holds a line break. -/
def hasBreak (gap : Gap) : Bool := gap.firstBreak.isSome

/-- The gap with a further blank. Blanks next to line breaks do not count. -/
def addBlank (gap : Gap) (letter : Char) : Gap :=
  if gap.hasBreak then gap else { gap with blanks := gap.blanks ++ [letter] }

/-- The gap with a further line break. -/
def addBreak (gap : Gap) (letter : Char) : Gap :=
  if gap.hasBreak then { gap with furtherBreaks := gap.furtherBreaks ++ [asBreak letter] }
  else ⟨[], some [asBreak letter], []⟩

/-- What a gap counts as. -/
def text (gap : Gap) : List Char :=
  match gap.firstBreak with
  | .none => gap.blanks
  | some ['\n'] => if gap.furtherBreaks.isEmpty then [' '] else gap.furtherBreaks
  | some first => first ++ gap.furtherBreaks

end Gap

/-! ### Unquoted scalars -/

/-- The text of an unquoted scalar, what follows it, and whether a line break stands before that. -/
structure PlainText where
  letters : List Char
  rest : List Char
  afterBreak : Bool

namespace PlainText

/-- A text with more in front. -/
def after (front : List Char) (text : PlainText) : PlainText :=
  { text with letters := front ++ text.letters }

end PlainText

/-- Whether a character ends a word inside brackets. -/
def endsInBrackets (letter : Char) : Bool :=
  [',', '[', ']', '\x7b', '\x7d'].contains letter

/-- Whether a colon and what follows it may not stand inside brackets. -/
def isBadColon : List Char → Bool
  | ':' :: next :: _ => endsInBrackets next || next == '?'
  | _ => false

/-- Whether an unquoted scalar ends here, at a character that is no blank or break. -/
def endsPlain (inBrackets : Bool) : List Char → Bool
  | [] => true
  | letter :: rest =>
    (letter == ':' && gapFollows rest) || (inBrackets && endsInBrackets letter)

/-- Reads an unquoted scalar from inside it. Outside brackets its lines are indented at least by a
given width. -/
def plainText (inBrackets : Bool) (width : Nat) (gap : Gap) (column : Nat) :
    List Char → Option PlainText
  | [] => some ⟨[], [], gap.hasBreak⟩
  | '\r' :: '\n' :: rest => plainText inBrackets width (gap.addBreak '\n') 0 rest
  | letter :: rest =>
    if isBreak letter then plainText inBrackets width (gap.addBreak letter) 0 rest
    else if isBlank letter then
      if gap.hasBreak && column < width && letter == '\t' then none
      else plainText inBrackets width (gap.addBlank letter) (column + 1) rest
    else
      let here := letter :: rest
      let isOutside := gap.hasBreak && !inBrackets && column < width
      let isMark := !gap.isNone && (letter == '#' || (column == 0 && atDocumentMark here))
      if isOutside || isMark then some ⟨[], here, gap.hasBreak⟩
      else if inBrackets && isBadColon here then none
      else if endsPlain inBrackets here then some ⟨[], here, gap.hasBreak⟩
      else
        (plainText inBrackets width .none (column + 1) rest).map (·.after (gap.text ++ [letter]))

/-! ### Quoted scalars -/

/-- The character that a letter stands for after a backslash. -/
def escaped? : Char → Option Char
  | '0' => some '\x00'
  | 'a' => some '\x07'
  | 'b' => some '\x08'
  | 't' => some '\t'
  | '\t' => some '\t'
  | 'n' => some '\n'
  | 'v' => some '\x0b'
  | 'f' => some '\x0c'
  | 'r' => some '\r'
  | 'e' => some '\x1b'
  | ' ' => some ' '
  | '"' => some '"'
  | '/' => some '/'
  | '\\' => some '\\'
  | 'N' => some '\u0085'
  | '_' => some '\u00a0'
  | 'L' => some '\u2028'
  | 'P' => some '\u2029'
  | _ => none

/-- The number of digits that follow a letter after a backslash. -/
def escapeWidth? : Char → Option Nat
  | 'x' => some 2
  | 'u' => some 4
  | 'U' => some 8
  | _ => none

/-- The character that hexadecimal digits name. -/
def numbered? (digits : List Char) : Option Char := do
  let point ← Text.natural? 16 digits
  if h : point.isValidChar then some (Char.ofNatAux point h) else none

/-- A text and what follows it. -/
structure QuotedText where
  letters : List Char
  rest : List Char

namespace QuotedText

/-- A text with more in front. -/
def after (front : List Char) (text : QuotedText) : QuotedText :=
  { text with letters := front ++ text.letters }

end QuotedText

/-- Reads a text between single quotes from inside it. -/
def singleText (gap : Gap) (atLineStart : Bool) : List Char → Option QuotedText
  | [] => none
  | '\r' :: '\n' :: rest => singleText (gap.addBreak '\n') true rest
  | '\x27' :: '\x27' :: rest =>
    (singleText .none false rest).map (·.after (gap.text ++ ['\x27']))
  | letter :: rest =>
    if isBreak letter then singleText (gap.addBreak letter) true rest
    else if isBlank letter then singleText (gap.addBlank letter) false rest
    else if atLineStart && atDocumentMark (letter :: rest) then none
    else if letter = '\x27' then some ⟨gap.text, rest⟩
    else (singleText .none false rest).map (·.after (gap.text ++ [letter]))

/-- Reads what an escape stands for, after the backslash and no line break, and what follows it. -/
def escapeText : List Char → Option (Char × List Char)
  | [] => none
  | letter :: rest =>
    match escaped? letter, escapeWidth? letter with
    | some meant, _ => some (meant, rest)
    | none, some width =>
      if rest.length < width then none
      else (numbered? (rest.take width)).map fun meant => (meant, rest.drop width)
    | none, none => none

/-- Reads a text between double quotes from inside it. -/
def doubleText (gap : Gap) (atLineStart : Bool) (input : List Char) : Option QuotedText :=
  match input with
  | [] => none
  | '\r' :: '\n' :: rest => doubleText (gap.addBreak '\n') true rest
  | '\\' :: '\r' :: '\n' :: rest =>
    (doubleText .escaped true rest).map (·.after gap.text)
  | letter :: rest =>
    if isBreak letter then doubleText (gap.addBreak letter) true rest
    else if isBlank letter then doubleText (gap.addBlank letter) false rest
    else if atLineStart && atDocumentMark input then none
    else if letter = '"' then some ⟨gap.text, rest⟩
    else if letter = '\\' then
      match rest with
      | [] => none
      | next :: further =>
        if isBreak next then (doubleText .escaped true further).map (·.after gap.text)
        else
          match escapeText (next :: further) with
          | none => none
          | some (meant, after) =>
            if after.length ≤ further.length then
              (doubleText .none false after).map (·.after (gap.text ++ [meant]))
            else none
    else (doubleText .none false rest).map (·.after (gap.text ++ [letter]))
termination_by input.length
decreasing_by all_goals (simp only [List.length_cons]; omega)

/-! ### Blocks -/

/-- What becomes of the line breaks at the end of a block. -/
inductive Chomping where
  | strip
  | clip
  | keep
  deriving DecidableEq

/-- The head of a block: the indentation that it names, and what becomes of its end. -/
structure BlockHead where
  indent : Option Nat
  chomping : Chomping

/-- The sign for the end of a block, and what follows it. -/
def chompingSign? : List Char → Option (Chomping × List Char)
  | '-' :: rest => some (.strip, rest)
  | '+' :: rest => some (.keep, rest)
  | _ => none

/-- The digit for the indentation of a block, and what follows it. A zero is no indentation. -/
def indentSign? : List Char → Option (Option Nat × List Char)
  | letter :: rest =>
    if letter = '0' then none
    else if letter.isDigit then some (some (letter.toNat - '0'.toNat), rest)
    else some (none, letter :: rest)
  | [] => some (none, [])

/-- Reads the signs after the mark of a block, in either order. -/
def blockSigns (letters : List Char) : Option (BlockHead × List Char) :=
  match chompingSign? letters with
  | some (chomping, rest) => do
    let (indent, rest) ← indentSign? rest
    some (⟨indent, chomping⟩, rest)
  | none => do
    let (indent, rest) ← indentSign? letters
    match indent, chompingSign? rest with
    | some _, some (chomping, rest) => some (⟨indent, chomping⟩, rest)
    | _, _ => some (⟨indent, .clip⟩, rest)

/-- A text without the line break at its front. -/
def afterBreak : List Char → List Char
  | '\r' :: '\n' :: rest => rest
  | letter :: rest => if isBreak letter then rest else letter :: rest
  | [] => []

/-- Reads the head of a block up to the end of its line; a comment may follow the signs. -/
def blockHead (letters : List Char) : Option (BlockHead × List Char) := do
  let (head, rest) ← blockSigns letters
  let rest := rest.dropWhile isBlank
  let rest := if rest.head? == some '#' then rest.dropWhile (!isBreak ·) else rest
  match rest with
  | [] => some (head, [])
  | letter :: _ => if isBreak letter then some (head, afterBreak rest) else none

/-- The empty lines before a line of a block, and where that line starts. -/
structure BlockGap where
  breaks : List Char
  widest : Nat
  column : Nat
  rest : List Char

/-- Reads empty lines and the indentation of the line after them, up to a width if one is known. -/
def blockGap (width : Option Nat) (column widest : Nat) : List Char → Option BlockGap
  | [] => some ⟨[], max widest column, column, []⟩
  | '\r' :: '\n' :: rest =>
    (blockGap width 0 (max widest column) rest).map fun gap =>
      { gap with breaks := '\n' :: gap.breaks }
  | letter :: rest =>
    let isInside := width.all (column < ·)
    if isInside && letter == ' ' then blockGap width (column + 1) widest rest
    else if isInside && letter == '\t' then none
    else if isBreak letter then
      (blockGap width 0 (max widest column) rest).map fun gap =>
        { gap with breaks := asBreak letter :: gap.breaks }
    else some ⟨[], max widest column, column, letter :: rest⟩

/-- The line breaks before a line of a folded block. A single one between two lines that do not
start with a blank counts as a space. -/
def foldedBreaks (literal leadingBlank : Bool) (first further : List Char)
    (line : List Char) : List Char :=
  let startsBlank := line.head?.any isBlank
  if !literal && first == ['\n'] && !leadingBlank && !startsBlank then
    if further.isEmpty then [' '] else further
  else first ++ further

/-- Reads the lines of a block at an indentation. What stands before the next line is given: the
break that ends the line before, and the empty lines after that. -/
def blockLines (literal : Bool) (chomping : Chomping) (width : Nat) (leadingBlank : Bool)
    (first : List Char) (gap : BlockGap) : Option QuotedText :=
  let line := gap.rest.takeWhile (!isBreak ·)
  if gap.column = width && !line.isEmpty then
    let rest := gap.rest.dropWhile (!isBreak ·)
    let ending := rest.head?.toList.map asBreak
    match blockGap (some width) 0 0 (afterBreak rest) with
    | none => none
    | some next =>
      if next.rest.length < gap.rest.length then
        (blockLines literal chomping width (line.head?.any isBlank) ending next).map
          (·.after (foldedBreaks literal leadingBlank first gap.breaks line ++ line))
      else none
  else
    let ending :=
      match chomping with
      | .strip => []
      | .clip => first
      | .keep => first ++ gap.breaks
    some ⟨ending, gap.rest⟩
termination_by gap.rest.length

/-- Reads a block after its mark. The indentation of what the block is part of is given, if it is
part of anything. -/
def blockText (literal : Bool) (parent : Option Nat) (letters : List Char) : Option QuotedText := do
  let (head, rest) ← blockHead letters
  let named := head.indent.map (parent.getD 0 + ·)
  let gap ← blockGap named 0 0 rest
  let least := (parent.map (· + 1)).getD 0
  let width := named.getD (max (max gap.widest least) 1)
  blockLines literal head.chomping width false [] gap

end PathQuery.Yaml
