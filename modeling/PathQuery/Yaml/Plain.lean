/-
This file says what an unquoted scalar stands for: nothing, a truth value, a whole
number, a fraction, or else the text that it is. Whole numbers may be written with a
sign and in base sixteen, eight or two; a number does not start with a needless zero.
-/

import PathQuery.Document.Mismatch
import PathQuery.Text.Letters

namespace PathQuery.Yaml

/-- Whether a scalar stands for nothing. -/
def isNull (text : String) : Bool :=
  ["null", "Null", "NULL", "~"].contains text

/-- The truth value that a scalar stands for. -/
def boolean? (text : String) : Option Bool :=
  if ["true", "True", "TRUE"].contains text then some true
  else if ["false", "False", "FALSE"].contains text then some false
  else none

/-! ### Whole numbers -/

/-- The number that is written after the mark of a base. -/
def based? : List Char → Option Nat
  | '0' :: 'x' :: rest => Text.natural? 16 rest
  | '0' :: 'o' :: rest => Text.natural? 8 rest
  | '0' :: 'b' :: rest => Text.natural? 2 rest
  | _ => none

/-- A scalar without the sign at its front. -/
def withoutSign : List Char → List Char
  | '-' :: rest => rest
  | '+' :: rest => rest
  | letters => letters

/-- Whether a scalar is made of digits, the first of them a needless zero. -/
def hasNeedlessZero (letters : List Char) : Bool :=
  match withoutSign letters with
  | '0' :: second :: rest => (second :: rest).all Char.isDigit
  | _ => false

/-- The number that is written in some base, or in base ten without a needless zero. -/
def magnitude? (letters : List Char) : Option Nat :=
  match based? letters with
  | some number => some number
  | none => if hasNeedlessZero letters then none else Text.natural? 10 letters

/-- The number that a scalar without a minus sign stands for. -/
def unsigned? : List Char → Option Nat
  | '+' :: rest => magnitude? rest
  | letters => magnitude? letters

/-- The number that a scalar with a minus sign stands for. -/
def negative? : List Char → Option Int
  | '-' :: rest => (magnitude? rest).map fun number => -(number : Int)
  | _ => none

/-- The whole number that a scalar stands for, as far as one of the widths holds it. -/
def integer? (letters : List Char) : Option Document.Found :=
  match unsigned? letters, negative? letters with
  | some number, _ =>
    if number < Nat.pow 2 64 then some (.integer number)
    else if number < Nat.pow 2 128 then some (.wideInteger number)
    else none
  | none, some number =>
    if -(Nat.pow 2 63 : Int) ≤ number then some (.integer number)
    else if -(Nat.pow 2 127 : Int) ≤ number then some (.wideInteger number)
    else none
  | none, none => none

/-! ### Fractions -/

/-- The digits at the front of a scalar, and what follows them. -/
def leadingDigits (letters : List Char) : List Char × List Char :=
  letters.span Char.isDigit

/-- The exponent that follows the digits of a fraction, if nothing else does. -/
def exponent? : List Char → Option Int
  | [] => some 0
  | mark :: rest =>
    if mark = 'e' || mark = 'E' then
      match rest with
      | '-' :: digits => (Text.natural? 10 digits).map fun number => -(number : Int)
      | '+' :: digits => (Text.natural? 10 digits).map Int.ofNat
      | digits => (Text.natural? 10 digits).map Int.ofNat
    else none

/-- The digits of a fraction, the power of ten that scales them, and nothing left over. -/
def decimal? (letters : List Char) : Option (Nat × Int) := do
  let (whole, rest) := leadingDigits letters
  let (fraction, rest) :=
    match rest with
    | '.' :: further => leadingDigits further
    | rest => ([], rest)
  let number ← Text.natural? 10 (whole ++ fraction)
  let exponent ← exponent? rest
  some (number, exponent - (fraction.length : Int))

/-- The powers of ten between which the first digit of a fraction can stand. -/
def fractionPowers : Int × Int := (-400, 400)

/-- The fraction `number · 10 ^ power`, as far as there is one of that size. -/
def fractionOf? (number : Nat) (power : Int) : Option Float :=
  let first := power + ((Nat.toDigits 10 number).length : Int)
  if number = 0 || first < fractionPowers.1 then some 0
  else if fractionPowers.2 < first then none
  else
    let value := Float.ofScientific number (power < 0) power.natAbs
    if value.isInf then none else some value

/-- The fraction that a scalar with or without a minus sign stands for. -/
def signedFraction? : List Char → Option Float
  | '-' :: rest => do
    let (number, power) ← decimal? rest
    let value ← fractionOf? number power
    some (-value)
  | letters => do
    let (number, power) ← decimal? letters
    fractionOf? number power

/-- The fraction that a scalar stands for. Infinities and the lack of a value have words of their
own. -/
def fraction? (text : String) : Option Float :=
  if [".inf", ".Inf", ".INF", "+.inf", "+.Inf", "+.INF"].contains text then some (1 / 0)
  else if ["-.inf", "-.Inf", "-.INF"].contains text then some (-1 / 0)
  else if [".nan", ".NaN", ".NAN"].contains text then some (0 / 0)
  else
    match text.toList with
    | '+' :: '-' :: _ => none
    | '+' :: rest => signedFraction? rest
    | letters => signedFraction? letters

/-! ### Scalars -/

/-- What an unquoted scalar stands for. -/
def meaning (text : String) : Document.Found :=
  if text.isEmpty || isNull text then .nothing
  else
    match boolean? text, integer? text.toList with
    | some value, _ => .boolean value
    | none, some found => found
    | none, none =>
      if hasNeedlessZero text.toList then .text text
      else
        match fraction? text with
        | some value => .fraction value
        | none => .text text

/-- Whether an unquoted scalar is read back as the text that it is. -/
def meansItself (text : String) : Bool :=
  match meaning text with
  | .text _ => !hasNeedlessZero text.toList
  | _ => false

end PathQuery.Yaml
