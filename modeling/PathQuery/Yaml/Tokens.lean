/-
This file cuts a document into tokens. The columns of lines decide where blocks open and
close. What turns out to be a name only by the colon after it is marked as a name at that
point, so a token that may still become a name is not settled yet; where the text cannot
be read on, the tokens end with the last one before any that is not settled.
-/

import PathQuery.Yaml.Lines
import PathQuery.Yaml.Token

namespace PathQuery.Yaml

/-! ### Where the reader stands -/

/-- A token that may turn out to be a name: its number, and where it starts. A name is called for
where a line of a block map starts. -/
structure PossibleName where
  token : Nat
  required : Bool
  line : Nat
  column : Nat
  index : Nat

/-- The reader of a document: the text that is left and where it starts, the columns of the blocks
that are open, from the innermost, the possible names on each level of brackets, from the
innermost, whether a name may start here, and the tokens so far, the last one first. -/
structure Scan where
  letters : List Char
  line : Nat
  column : Nat
  index : Nat
  blocks : List Nat
  names : List (Option PossibleName)
  nameAllowed : Bool
  tokens : List Token

namespace Scan

/-- The reader at the start of a text. -/
def start (letters : List Char) : Scan :=
  ⟨letters, 0, 0, 0, [], [none], true, []⟩

/-- Whether the reader is inside brackets. -/
def inBrackets (scan : Scan) : Bool := 1 < scan.names.length

/-- The reader after a character. Two marks for one line break count once. -/
def pass (scan : Scan) : List Char → Scan
  | [] => scan
  | '\r' :: '\n' :: rest =>
    pass { scan with line := scan.line + 1, column := 0, index := scan.index + 2 } rest
  | letter :: rest =>
    if isBreak letter then
      pass { scan with line := scan.line + 1, column := 0, index := scan.index + 1 } rest
    else pass { scan with column := scan.column + 1, index := scan.index + 1 } rest

/-- The reader at a later part of its text. -/
def moveTo (scan : Scan) (rest : List Char) : Scan :=
  { scan.pass (scan.letters.take (scan.letters.length - rest.length)) with letters := rest }

/-- Adds a token. -/
def add (scan : Scan) (token : Token) : Scan :=
  { scan with tokens := token :: scan.tokens }

/-- Adds tokens in front of the token with a number. -/
def addBefore (scan : Scan) (number : Nat) (tokens : List Token) : Scan :=
  let later := scan.tokens.length - number
  { scan with
    tokens := scan.tokens.take later ++ tokens.reverse ++ scan.tokens.drop later }

/-! ### Possible names -/

/-- The number of characters that a name may be away from its colon. -/
def nameReach : Nat := 1024

/-- Whether a possible name can no longer be one: it ends on an earlier line or too far back. -/
def isStale (scan : Scan) (name : PossibleName) : Bool :=
  name.line < scan.line || name.index + nameReach < scan.index

/-- Gives up possible names that can no longer be names, unless a name is called for. -/
def dropStale (scan : Scan) : Option Scan := do
  let names ← scan.names.mapM fun name =>
    match name with
    | none => some none
    | some name =>
      if scan.isStale name then if name.required then none else some none else some (some name)
  some { scan with names }

/-- The possible name on the present level of brackets. -/
def name? (scan : Scan) : Option PossibleName := scan.names.head?.bind id

/-- Sets the possible name on the present level of brackets. -/
def setName (scan : Scan) (name : Option PossibleName) : Scan :=
  { scan with names := name :: scan.names.tail }

/-- Gives up the possible name on the present level, unless a name is called for. -/
def dropName (scan : Scan) : Option Scan :=
  match scan.name? with
  | some name => if name.required then none else some (scan.setName none)
  | none => some scan

/-- Notes that the next token may turn out to be a name, where that is allowed. -/
def noteName (scan : Scan) : Option Scan :=
  if scan.nameAllowed then do
    let required := !scan.inBrackets && scan.blocks.head? == some scan.column
    let scan ← scan.dropName
    some (scan.setName
      (some ⟨scan.tokens.length, required, scan.line, scan.column, scan.index⟩))
  else some scan

/-- Allows or forbids names from here. -/
def allowNames (scan : Scan) (nameAllowed : Bool) : Scan := { scan with nameAllowed }

/-! ### Blocks -/

/-- Whether a column lies further in than the innermost block. -/
def isInside (scan : Scan) (column : Nat) : Bool :=
  scan.blocks.head?.all (· < column)

/-- Opens a block at a column, unless one is open there; its token goes where it is told. -/
def openBlock (scan : Scan) (column : Nat) (put : Scan → Scan) : Scan :=
  if !scan.inBrackets && scan.isInside column then
    put { scan with blocks := column :: scan.blocks }
  else scan

/-- Closes the blocks of a list that satisfy a condition, from the innermost. -/
def closeBlocks (closes : Nat → Bool) (scan : Scan) : List Nat → Scan
  | [] => { scan with blocks := [] }
  | column :: rest =>
    if closes column then closeBlocks closes (scan.add .closeBlock) rest
    else { scan with blocks := column :: rest }

/-- Closes the blocks that lie further in than the place of the reader. -/
def closeInner (scan : Scan) : Scan :=
  if scan.inBrackets then scan else closeBlocks (scan.column < ·) scan scan.blocks

/-- Closes all blocks. -/
def closeAll (scan : Scan) : Scan :=
  if scan.inBrackets then scan else closeBlocks (fun _ => true) scan scan.blocks

/-! ### Gaps between tokens -/

/-- What is left of a text after blanks, comments and line breaks, and whether a name may start
there. -/
def afterGap (inBrackets : Bool) : (nameAllowed inComment : Bool) → List Char → List Char × Bool
  | nameAllowed, _, [] => ([], nameAllowed)
  | nameAllowed, inComment, letter :: rest =>
    if isBreak letter then afterGap inBrackets (nameAllowed || !inBrackets) false rest
    else if inComment || letter == '#' then afterGap inBrackets nameAllowed true rest
    else if letter == ' ' || (letter == '\t' && (inBrackets || !nameAllowed)) then
      afterGap inBrackets nameAllowed false rest
    else (letter :: rest, nameAllowed)

/-- The reader at its next token. A mark for the order of bytes may start the text. -/
def toToken (scan : Scan) : Scan :=
  let letters :=
    match scan.letters with
    | letter :: rest => if scan.index = 0 && letter = '\ufeff' then rest else letter :: rest
    | [] => []
  let (rest, nameAllowed) := afterGap scan.inBrackets scan.nameAllowed false letters
  (scan.moveTo rest).allowNames nameAllowed

/-! ### Tokens of one character -/

/-- Opens a bracket. -/
def openBracket (scan : Scan) (token : Token) (rest : List Char) : Option Scan := do
  let scan ← scan.noteName
  let scan := { scan with names := none :: scan.names, nameAllowed := true }
  some ((scan.moveTo rest).add token)

/-- Closes a bracket. -/
def closeBracket (scan : Scan) (token : Token) (rest : List Char) : Option Scan := do
  let scan ← scan.dropName
  let names := if scan.inBrackets then scan.names.tail else scan.names
  some (({ scan with names, nameAllowed := false }.moveTo rest).add token)

/-- Ends an entry inside brackets. -/
def passComma (scan : Scan) (rest : List Char) : Option Scan := do
  let scan ← scan.dropName
  some (((scan.allowNames true).moveTo rest).add .comma)

/-- Starts an entry of a block list. -/
def passEntry (scan : Scan) (rest : List Char) : Option Scan := do
  if !scan.inBrackets && !scan.nameAllowed then none
  let scan := scan.openBlock scan.column (·.add .openBlockList)
  let scan ← scan.dropName
  some (((scan.allowNames true).moveTo rest).add .entry)

/-- Starts a name that is set off by a mark. -/
def passKey (scan : Scan) (rest : List Char) : Option Scan := do
  if !scan.inBrackets && !scan.nameAllowed then none
  let scan := scan.openBlock scan.column (·.add .openBlockMap)
  let scan ← scan.dropName
  some (((scan.allowNames !scan.inBrackets).moveTo rest).add .key)

/-- Starts a value. The possible name before it is a name now. -/
def passValue (scan : Scan) (rest : List Char) : Option Scan :=
  match scan.name? with
  | some name =>
    let scan := scan.addBefore name.token [.key]
    let scan := scan.openBlock name.column (·.addBefore name.token [.openBlockMap])
    some ((((scan.setName none).allowNames false).moveTo rest).add .value)
  | none => do
    if !scan.inBrackets && !scan.nameAllowed then none
    let scan := scan.openBlock scan.column (·.add .openBlockMap)
    some (((scan.allowNames !scan.inBrackets).moveTo rest).add .value)

/-! ### Anchors and tags -/

/-- Whether a character may be part of a handle or of the name of an anchor. -/
def isNameLetter (letter : Char) : Bool :=
  letter.isAlphanum || letter == '_' || letter == '-'

/-- Whether the name of an anchor may end before a text. -/
def endsAnchor : List Char → Bool
  | [] => true
  | letter :: _ =>
    isGap letter || ['?', ':', ',', ']', '\x7d', '%', '@', '\u0060'].contains letter

/-- Reads an anchor or an alias. -/
def passAnchor (scan : Scan) (token : String → Token) (rest : List Char) : Option Scan := do
  let scan ← scan.noteName
  let name := rest.takeWhile isNameLetter
  let rest := rest.dropWhile isNameLetter
  if name.isEmpty || !endsAnchor rest then none
  some (((scan.allowNames false).moveTo rest).add (token (String.ofList name)))

/-- Whether a character may be part of a tag; some more may where the tag is between angle
brackets. -/
def isTagLetter (between : Bool) (letter : Char) : Bool :=
  isNameLetter letter || ";/?:@&=+$.!~*'()".toList.contains letter ||
    (between && [',', '[', ']'].contains letter)

/-- The bytes that are written by their numbers at the front of a text, at most so many. -/
def writtenBytes : (limit : Nat) → List Char → List Nat × List Char
  | limit + 1, '%' :: first :: second :: rest =>
    match Text.natural? 16 [first, second] with
    | some byte =>
      let (bytes, rest) := writtenBytes limit rest
      (byte :: bytes, rest)
    | none => ([], '%' :: first :: second :: rest)
  | _, letters => ([], letters)

/-- The number of bytes of a character by its first byte. -/
def characterBytes? (byte : Nat) : Option Nat :=
  if byte < 0x80 then some 1
  else if byte / 0x20 = 0x6 then some 2
  else if byte / 0x10 = 0xe then some 3
  else if byte / 0x08 = 0x1e then some 4
  else none

/-- The character that is written by the numbers of its bytes, and what follows it. -/
def writtenCharacter? (letters : List Char) : Option (Char × List Char) := do
  let first ← (writtenBytes 1 letters).1.head?
  let count ← characterBytes? first
  let (bytes, rest) := writtenBytes count letters
  let text ← String.fromUTF8? (ByteArray.mk (bytes.map UInt8.ofNat).toArray)
  match text.toList with
  | [letter] => some (letter, rest)
  | _ => none

/-- Reads the characters of a tag. -/
def tagText (between : Bool) (letters : List Char) : Option (List Char × List Char) :=
  match letters with
  | [] => some ([], [])
  | letter :: rest =>
    if isTagLetter between letter then
      (tagText between rest).map fun (text, after) => (letter :: text, after)
    else if letter = '%' then
      match writtenCharacter? letters with
      | none => none
      | some (meant, after) =>
        if after.length ≤ rest.length then
          (tagText between after).map fun (text, after) => (meant :: text, after)
        else none
    else some ([], letters)
termination_by letters.length

/-- The handle and the suffix of a tag, and what follows them. -/
def tagParts : List Char → Option ((List Char × List Char) × List Char)
  | '<' :: rest => do
    let (suffix, rest) ← tagText true rest
    match rest with
    | '>' :: rest => if suffix.isEmpty then none else some (([], suffix), rest)
    | _ => none
  | rest => do
    let name := rest.takeWhile isNameLetter
    match rest.dropWhile isNameLetter with
    | '!' :: further => do
      let (suffix, rest) ← tagText false further
      if suffix.isEmpty then none
      some (('!' :: name ++ ['!'], suffix), rest)
    | _ => do
      let (suffix, rest) ← tagText false rest
      some (if suffix.isEmpty then (([], ['!']), rest) else ((['!'], suffix), rest))

/-- Reads a tag. -/
def passTag (scan : Scan) (rest : List Char) : Option Scan := do
  let scan ← scan.noteName
  let ((handle, suffix), rest) ← tagParts rest
  if !(gapFollows rest || (scan.inBrackets && rest.head? == some ',')) then none
  some (((scan.allowNames false).moveTo rest).add
    (.tag (String.ofList handle) (String.ofList suffix)))

/-! ### Scalars -/

/-- Reads a quoted scalar. -/
def passQuoted (scan : Scan) (read : List Char → Option QuotedText) (rest : List Char) :
    Option Scan := do
  let scan ← scan.noteName
  let text ← read rest
  some (((scan.allowNames false).moveTo text.rest).add
    (.scalar .quoted (String.ofList text.letters)))

/-- Reads a scalar that is written as a block. -/
def passBlock (scan : Scan) (literal : Bool) (rest : List Char) : Option Scan := do
  let scan ← scan.dropName
  let text ← blockText literal scan.blocks.head? rest
  some (((scan.allowNames true).moveTo text.rest).add
    (.scalar (if literal then .literal else .folded) (String.ofList text.letters)))

/-- Whether an unquoted scalar may start with a text. -/
def startsPlain (inBrackets : Bool) : List Char → Bool
  | [] => false
  | letter :: rest =>
    if letter = '-' then !(rest.head?.any isBlank)
    else if letter = '?' || letter = ':' then !inBrackets && !gapFollows rest
    else
      !(isGap letter || [',', '[', ']', '\x7b', '\x7d', '#', '&', '*', '!', '|', '>', '\x27', '"',
        '%', '@', '\u0060'].contains letter)

/-- Reads an unquoted scalar. -/
def passPlain (scan : Scan) : Option Scan := do
  let scan ← scan.noteName
  let width := (scan.blocks.head?.map (· + 1)).getD 0
  let text ← plainText scan.inBrackets width .none scan.column scan.letters
  some (((scan.allowNames text.afterBreak).moveTo text.rest).add
    (.scalar .plain (String.ofList text.letters)))

/-! ### Directives and marks of documents -/

/-- The part of a line after blanks and a comment, if nothing else is left of it. -/
def lineEnd (letters : List Char) : Option (List Char) :=
  let rest := letters.dropWhile isBlank
  let rest := if rest.head? == some '#' then rest.dropWhile (!isBreak ·) else rest
  if rest.head?.all isBreak then some rest else none

/-- The token of a directive, and what follows its line. -/
def directive (letters : List Char) : Option (Token × List Char) := do
  let name := letters.takeWhile isNameLetter
  let rest := letters.dropWhile isNameLetter
  if name.isEmpty || !gapFollows rest then none
  let rest := rest.dropWhile isBlank
  match String.ofList name with
  | "YAML" =>
    let major := rest.takeWhile Char.isDigit
    match rest.dropWhile Char.isDigit with
    | '.' :: further =>
      let minor := further.takeWhile Char.isDigit
      if 9 < major.length || 9 < minor.length then none
      let major ← Text.natural? 10 major
      let minor ← Text.natural? 10 minor
      let rest ← lineEnd (further.dropWhile Char.isDigit)
      some (.version major minor, rest)
    | _ => none
  | "TAG" =>
    match rest with
    | '!' :: further =>
      let inner := further.takeWhile isNameLetter
      let further := further.dropWhile isNameLetter
      let (handle, after) ←
        match further with
        | '!' :: after => some ('!' :: inner ++ ['!'], after)
        | after => if inner.isEmpty then some (['!'], after) else none
      if !(after.head?.any isBlank) then none
      let (start, rest) ← tagText true (after.dropWhile isBlank)
      if start.isEmpty || !gapFollows rest then none
      let rest ← lineEnd rest
      some (.tagHandle (String.ofList handle) (String.ofList start), rest)
    | _ => none
  | _ => none

/-- Closes everything before a directive or a mark of a document. -/
def closeDocument (scan : Scan) : Option Scan := do
  let scan ← scan.closeAll.dropName
  some (scan.allowNames false)

/-- Reads a directive. -/
def passDirective (scan : Scan) (rest : List Char) : Option Scan := do
  let scan ← scan.closeDocument
  let (token, rest) ← directive rest
  some ((scan.moveTo rest).add token)

/-- Reads the mark for the start or the end of a document. -/
def passDocumentMark (scan : Scan) (token : Token) : Option Scan := do
  let scan ← scan.closeDocument
  some ((scan.moveTo (scan.letters.drop 3)).add token)

/-! ### All tokens -/

/-- Reads the next token, which starts with a character. -/
def passToken (scan : Scan) (letter : Char) (rest : List Char) : Option Scan :=
  let atMark := scan.column == 0 && atDocumentMark scan.letters
  if scan.column = 0 && letter = '%' then scan.passDirective rest
  else if atMark && letter = '-' then scan.passDocumentMark .documentStart
  else if atMark then scan.passDocumentMark .documentEnd
  else
    match letter with
    | '[' => scan.openBracket .openList rest
    | '\x7b' => scan.openBracket .openMap rest
    | ']' => scan.closeBracket .closeList rest
    | '\x7d' => scan.closeBracket .closeMap rest
    | ',' => scan.passComma rest
    | '*' => scan.passAnchor .alias rest
    | '&' => scan.passAnchor .anchor rest
    | '!' => scan.passTag rest
    | '\x27' => scan.passQuoted (singleText .none false) rest
    | '"' => scan.passQuoted (doubleText .none false) rest
    | _ =>
      let stands := scan.inBrackets || gapFollows rest
      if letter = '-' && gapFollows rest then scan.passEntry rest
      else if letter = '?' && stands then scan.passKey rest
      else if letter = ':' && stands then scan.passValue rest
      else if letter = '|' && !scan.inBrackets then scan.passBlock true rest
      else if letter = '>' && !scan.inBrackets then scan.passBlock false rest
      else if startsPlain scan.inBrackets scan.letters then scan.passPlain
      else none

/-- The end of the text: all that is open is closed. -/
def finish (scan : Scan) : Option Scan := do
  let scan ← scan.closeAll.dropName
  some (scan.add .streamEnd)

/-- Reads the next token, or finds the end of the text. -/
def next (scan : Scan) : Option Scan := do
  let scan ← scan.toToken.dropStale
  let scan := scan.closeInner
  match scan.letters with
  | [] => scan.finish
  | letter :: rest => scan.passToken letter rest

/-- The tokens that are settled. -/
def settled (scan : Scan) : List Token :=
  let unsettled := scan.names.filterMap (·.map (·.token))
  let count := unsettled.foldl min scan.tokens.length
  scan.tokens.reverse.take count

/-- Reads tokens up to the end of the text, or to where it cannot be read on. -/
def all (scan : Scan) : List Token :=
  match scan.dropStale with
  | none => scan.settled
  | some fresh =>
    match fresh.next with
    | none => fresh.settled
    | some further =>
      if further.tokens.head? == some .streamEnd then further.tokens.reverse
      else if further.letters.length < scan.letters.length then further.all
      else fresh.settled
termination_by scan.letters.length

end Scan

/-- Whether a character may be part of a document at all. -/
def isAllowed (letter : Char) : Bool :=
  letter == '\t' || letter == '\r' || letter == '\u0085' || letter == '\ufeff' ||
    isPrintable letter

/-- The tokens of a document; only of a text that can be read to its end the last one is
`streamEnd`. -/
def tokens (text : String) : List Token :=
  if text.toList.all isAllowed then (Scan.start text.toList).all else []

end PathQuery.Yaml
