/-
This file defines the values of JSON documents and how they are written. Numbers are
whole where they fit a machine word and binary fractions otherwise. The members of an
object read from a document are kept in the order of their names.
-/

import PathQuery.Decimal.Shortest

namespace PathQuery.Json

/-- A number of a document. -/
inductive Number where
  | integer (value : Int)
  | double (value : Float)

/-- A value of a document. -/
inductive Value where
  | null
  | boolean (value : Bool)
  | number (value : Number)
  | text (value : String)
  | array (items : List Value)
  | object (members : List (String × Value))

/-! ### Numbers -/

/-- The powers of ten between which a fraction is written without an exponent. -/
def positionalPowers : Int × Int := (-5, 15)

/-- A decimal with an exponent: one digit before the point, and no point after a single digit. -/
def scientific (decimal : Decimal.Shortest) : List Char :=
  let power := decimal.point - 1
  let mantissa :=
    match decimal.letters with
    | first :: second :: rest => first :: '.' :: second :: rest
    | letters => letters
  let sign := if power < 0 then '-' else '+'
  mantissa ++ 'e' :: sign :: Nat.toDigits 10 power.natAbs

/-- The fewest digits that read back as a number, positional or with an exponent by its size. -/
def doubleText (value : Float) : String :=
  let bits := value.toBits.toNat
  let sign := if bits < Nat.pow 2 63 then [] else ['-']
  let magnitude := bits % Nat.pow 2 63
  let letters :=
    if magnitude = 0 then ['0', '.', '0']
    else
      let decimal := Decimal.shortest magnitude
      let power := decimal.point - 1
      if positionalPowers.1 ≤ power && power ≤ positionalPowers.2 then decimal.positional
      else scientific decimal
  String.ofList (sign ++ letters)

/-- The text of a number. -/
def Number.text : Number → String
  | integer value => toString value
  | double value => doubleText value

/-! ### Texts -/

/-- The escape of a character by four hexadecimal digits. -/
def hexEscape (letter : Char) : List Char :=
  let digits := Nat.toDigits 16 letter.toNat
  '\\' :: 'u' :: List.replicate (4 - digits.length) '0' ++ digits

/-- A character inside a quoted text. -/
def quotedLetter (letter : Char) : List Char :=
  if letter = '"' || letter = '\\' then ['\\', letter]
  else if letter = '\x08' then ['\\', 'b']
  else if letter = '\x0c' then ['\\', 'f']
  else if letter = '\n' then ['\\', 'n']
  else if letter = '\r' then ['\\', 'r']
  else if letter = '\t' then ['\\', 't']
  else if letter.toNat < 0x20 then hexEscape letter
  else [letter]

/-- A text between quotes, with escapes only where the format asks for them. -/
def quoted (text : String) : String :=
  "\"" ++ String.ofList (text.toList.flatMap quotedLetter) ++ "\""

/-! ### Values on one line -/

mutual

/-- The text of a value without any space. -/
def Value.compact : Value → String
  | .null => "null"
  | .boolean value => if value then "true" else "false"
  | .number value => value.text
  | .text value => quoted value
  | .array items => "[" ++ ",".intercalate (compactItems items) ++ "]"
  | .object members => "\x7b" ++ ",".intercalate (compactMembers members) ++ "\x7d"

/-- The texts of the items of an array. -/
def compactItems : List Value → List String
  | [] => []
  | item :: rest => item.compact :: compactItems rest

/-- The texts of the members of an object. -/
def compactMembers : List (String × Value) → List String
  | [] => []
  | (name, value) :: rest => (quoted name ++ ":" ++ value.compact) :: compactMembers rest

end

/-! ### Values on many lines -/

/-- The start of a line that is nested to a depth. -/
def lineStart (depth : Nat) : String :=
  String.ofList ('\n' :: List.replicate (2 * depth) ' ')

/-- Lines between brackets, or the brackets alone where there are none. -/
def bracketed (opening closing : String) (depth : Nat) (lines : List String) : String :=
  if lines.isEmpty then opening ++ closing
  else
    let start := lineStart (depth + 1)
    opening ++ start ++ ("," ++ start).intercalate lines ++ lineStart depth ++ closing

mutual

/-- The text of a value whose parts stand on lines of their own, indented by two spaces for each
level of nesting. -/
def Value.indented (depth : Nat) : Value → String
  | .array items => bracketed "[" "]" depth (indentedItems (depth + 1) items)
  | .object members => bracketed "\x7b" "\x7d" depth (indentedMembers (depth + 1) members)
  | value => value.compact

/-- The lines for the items of an array. -/
def indentedItems (depth : Nat) : List Value → List String
  | [] => []
  | item :: rest => item.indented depth :: indentedItems depth rest

/-- The lines for the members of an object. -/
def indentedMembers (depth : Nat) : List (String × Value) → List String
  | [] => []
  | (name, value) :: rest =>
    (quoted name ++ ": " ++ value.indented depth) :: indentedMembers depth rest

end

/-- The text of a value on many lines. -/
def Value.pretty (value : Value) : String := value.indented 0

/-- The text that a value gives to an attribute: a text gives itself, null gives nothing, and any
other value is written on one line. -/
def Value.attrText : Value → String
  | .text value => value
  | .null => ""
  | value => value.compact

end PathQuery.Json
