/-
This file defines the smallest parts of a YAML document. Its characters are sorted: line breaks,
blanks, and the characters that may stand in a document as they are. The structure that
indentation expresses is made explicit: tokens open and close the lists and maps that are
written as blocks of lines.
-/

namespace PathQuery.Yaml

/-! ### Characters -/

/-- Whether a character ends a line. -/
def isBreak (letter : Char) : Bool :=
  ['\n', '\r', '\u0085', '\u2028', '\u2029'].contains letter

/-- Whether a character separates words within a line. -/
def isBlank (letter : Char) : Bool :=
  letter == ' ' || letter == '\t'

/-- Whether a character is a blank, a line break or the mark for the end of a text. -/
def isGap (letter : Char) : Bool :=
  isBlank letter || isBreak letter || letter == '\x00'

/-- Whether what follows is a gap; the end of the text is one. -/
def gapFollows : List Char → Bool
  | [] => true
  | letter :: _ => isGap letter

/-- Whether a character may stand in a document as it is. -/
def isPrintable (letter : Char) : Bool :=
  let point := letter.toNat
  point == 0x0a || (0x20 ≤ point && point ≤ 0x7e) || (0xa0 ≤ point && point ≤ 0xd7ff) ||
    (0xe000 ≤ point && point ≤ 0xfffd && point != 0xfeff) || 0x10000 ≤ point

/-! ### Tokens -/

/-- How a scalar is written, as far as that tells what it stands for. -/
inductive Writing where
  | plain
  | quoted
  | literal
  | folded
  deriving DecidableEq

/-- The tokens of a document. -/
inductive Token where
  | version (major minor : Nat)
  | tagHandle (handle start : String)
  | documentStart
  | documentEnd
  | streamEnd
  | openBlockList
  | openBlockMap
  | closeBlock
  | openList
  | closeList
  | openMap
  | closeMap
  | entry
  | comma
  | key
  | value
  | alias (name : String)
  | anchor (name : String)
  | tag (handle suffix : String)
  | scalar (writing : Writing) (text : String)
  deriving DecidableEq

end PathQuery.Yaml
