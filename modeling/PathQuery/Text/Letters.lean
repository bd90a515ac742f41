/-
This file sorts the characters of plain text and measures them: those that count as blank, by the
White_Space property of the Unicode character database, the digits of numbers in a base up to
thirty-six, and the bytes that characters take.
-/

namespace PathQuery.Text

/-! ### Blank characters -/

/-- The ranges of code points with the White_Space property, in ascending order. -/
def blankRanges : List (Nat × Nat) :=
  [(0x09, 0x0d), (0x20, 0x20), (0x85, 0x85), (0xa0, 0xa0), (0x1680, 0x1680), (0x2000, 0x200a),
    (0x2028, 0x2029), (0x202f, 0x202f), (0x205f, 0x205f), (0x3000, 0x3000)]

/-- Whether a code point lies in one of the ranges. -/
def inRanges (ranges : List (Nat × Nat)) (point : Nat) : Bool :=
  ranges.any fun range => range.1 ≤ point && point ≤ range.2

/-- Whether a character has the White_Space property. -/
def isBlank (letter : Char) : Bool :=
  inRanges blankRanges letter.toNat

/-- Whether nothing but blank characters stands in a text. -/
def isBlankText (text : String) : Bool :=
  text.toList.all isBlank

/-! ### Digits -/

/-- The value of a digit in a base; letters of either case follow the nine. -/
def digit? (base : Nat) (letter : Char) : Option Nat :=
  let value :=
    if letter.isDigit then some (letter.toNat - '0'.toNat)
    else if letter.isLower then some (letter.toNat - 'a'.toNat + 10)
    else if letter.isUpper then some (letter.toNat - 'A'.toNat + 10)
    else none
  value.filter (· < base)

/-- The number that digits in a base spell; there must be one at least. -/
def natural? (base : Nat) (letters : List Char) : Option Nat :=
  if letters.isEmpty then none
  else letters.foldlM (fun number letter => (digit? base letter).map (number * base + ·)) 0

/-! ### Bytes -/

/-- The number of bytes that characters take. -/
def byteSize : List Char → Nat
  | [] => 0
  | letter :: rest => letter.utf8Size + byteSize rest

/-- The bytes of two pieces of text add up. -/
theorem byteSize_append (front rest : List Char) :
    byteSize (front ++ rest) = byteSize front + byteSize rest := by
  induction front with
  | nil => rw [List.nil_append, byteSize, Nat.zero_add]
  | cons letter front inductionHypothesis =>
    rw [List.cons_append, byteSize, inductionHypothesis, byteSize, Nat.add_assoc]

end PathQuery.Text
