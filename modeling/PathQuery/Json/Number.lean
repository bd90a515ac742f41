/-
This file reads numbers: first their written form, then its value. A whole number that
fits a machine word is kept as it is; every other number becomes a binary fraction, from
the first digits that fit a machine word and a power of ten.
-/

import PathQuery.Json.Taken

namespace PathQuery.Json

open Text (Remaining)

/-! ### The written form -/

/-- The digits of a number as they are written. The exponent has a sign of its own. -/
structure Written where
  negative : Bool
  whole : List Nat
  fraction : Option (List Nat)
  exponent : Option (Bool × List Nat)

/-- The values of the digits at the front of a text, and what follows them. -/
def digits : (input : List Char) → List Nat × Remaining input
  | [] => ([], .all [])
  | letter :: input =>
    if letter.isDigit then
      let (values, rest) := digits input
      ((letter.toNat - '0'.toNat) :: values, rest.cons letter)
    else ([], .all (letter :: input))

/-- Where a digit is missing: one fault at the end of the text, another elsewhere. -/
def missingDigit (ending : Fault) (input : List Char) : Stop :=
  if input.isEmpty then ending.atEnd else Fault.badNumber.past input

/-- A part of a number that may be there, and what follows it. -/
abbrev Optional (α : Type) (input : List Char) :=
  Option α × Remaining input

/-- Reads the digits after a point. -/
def fraction (ending : Fault) (input : List Char) : Except Stop (Optional (List Nat) input) :=
  match input with
  | '.' :: input =>
    match digits input with
    | ([], rest) => .error (missingDigit ending rest.val)
    | (values, rest) => .ok (some values, rest.cons '.')
  | input => .ok (none, .all input)

/-- Reads the sign of an exponent: whether it is negative, and what follows it. -/
def exponentSign : (input : List Char) → Bool × Remaining input
  | '-' :: input => (true, .tail '-' input)
  | '+' :: input => (false, .tail '+' input)
  | input => (false, .all input)

/-- Reads the exponent of a number. -/
def exponent (ending : Fault) (input : List Char) :
    Except Stop (Optional (Bool × List Nat) input) :=
  match input with
  | [] => .ok (none, .all [])
  | letter :: input =>
    if letter = 'e' || letter = 'E' then
      let (negative, further) := exponentSign input
      match digits further.val with
      | ([], rest) => .error (missingDigit ending rest.val)
      | (values, rest) => .ok (some (negative, values), (further.within rest).cons letter)
    else .ok (none, .all (letter :: input))

/-- Reads the digits before the point: a single zero, or digits that do not start with zero. -/
def whole (ending : Fault) : Reading (List Nat)
  | [] => .error ending.atEnd
  | letter :: input =>
    if letter = '0' then
      match digits input with
      | ([], rest) => .ok (.ofRemaining [0] letter rest)
      | _ => .error (Fault.badNumber.past input)
    else if letter.isDigit then
      let (values, rest) := digits input
      .ok (.ofRemaining ((letter.toNat - '0'.toNat) :: values) letter rest)
    else .error (Fault.badNumber.past (letter :: input))

/-- Reads a number without its sign. -/
def unsigned (ending : Fault) (negative : Bool) : Reading Written := fun input => do
  let ⟨whole, rest, shorter⟩ ← whole ending input
  let ⟨fraction, ⟨rest, fewer⟩⟩ ← fraction ending rest
  let ⟨exponent, ⟨rest, least⟩⟩ ← exponent ending rest
  .ok ⟨⟨negative, whole, fraction, exponent⟩, rest, by omega⟩

/-- Reads a number as it is written. The fault for a text that ends inside it is given. -/
def written (ending : Fault) : Reading Written
  | '-' :: input => do
    let taken ← unsigned ending true input
    .ok (taken.afterLetter '-')
  | input => unsigned ending false input

/-! ### The value -/

/-- The numbers that a machine word holds without a sign. -/
def wordLimit : Nat := Nat.pow 2 64

/-- Appends digits to a number as long as it stays below a limit, and counts those left over. -/
def accumulate (limit number : Nat) : List Nat → Nat × Nat
  | [] => (number, 0)
  | digit :: rest =>
    if number * 10 + digit < limit then accumulate limit (number * 10 + digit) rest
    else (number, rest.length + 1)

/-- The number that digits spell. -/
def spelled (digits : List Nat) : Nat :=
  digits.foldl (fun number digit => number * 10 + digit) 0

/-- A power of ten as a fraction. -/
def tenTo (power : Nat) : Float := Float.ofScientific 1 false power

/-- The greatest power of ten that a fraction can hold. -/
def greatestPower : Nat := 308

/-- Divides by a power of ten, in steps of the greatest power there is. -/
def shrink (value : Float) (power : Nat) : Float :=
  if greatestPower < power then
    if value == 0 then value else shrink (value / tenTo greatestPower) (power - greatestPower)
  else value / tenTo power
termination_by power
decreasing_by
  unfold greatestPower at *
  omega

/-- Multiplies by a power of ten, where the product is within range. -/
def grow (value : Float) (power : Nat) : Option Float :=
  if greatestPower < power then if value == 0 then some value else none
  else
    let product := value * tenTo power
    if product.isInf then none else some product

/-- The fraction `significand · 10 ^ power`, where it is within range. -/
def scaled (significand : Nat) (power : Int) : Option Float :=
  let value := (UInt64.ofNat significand).toFloat
  match power with
  | .ofNat power => grow value power
  | .negSucc power => some (shrink value (power + 1))

/-- The value of a number that is written with a point or an exponent, or is too large for a
machine word, where it is within range. -/
def Written.double (written : Written) : Option Float :=
  let (number, left) := accumulate wordLimit 0 written.whole
  let fraction := written.fraction.getD []
  let (significand, dropped) := accumulate wordLimit number fraction
  let exponent :=
    match written.exponent with
    | some (true, digits) => -(spelled digits : Int)
    | some (false, digits) => (spelled digits : Int)
    | none => 0
  (scaled significand (left - (fraction.length - dropped : Nat) + exponent)).map fun value =>
    if written.negative then -value else value

/-- The value of a number, where it is within range. A negative zero is a fraction, as no whole
number has that sign. -/
def Written.value (written : Written) : Option Number :=
  let number := spelled written.whole
  let isWhole := written.fraction.isNone && written.exponent.isNone
  if isWhole && !written.negative && number < wordLimit then some (.integer number)
  else if isWhole && written.negative && number != 0 && number ≤ wordLimit / 2 then
    some (.integer (-number))
  else written.double.map .double

/-- The numbers that an exponent is kept in. -/
def exponentLimit : Nat := Nat.pow 2 31

/-- The digits that are not looked at any more when a number turns out to be too large: those after
the digit with which its exponent leaves the range. -/
def Written.unread (written : Written) : Nat :=
  match written.exponent with
  | some (_, digits) => (accumulate exponentLimit 0 digits).2 - 1
  | none => 0

/-- Reads a number that is kept. -/
def numberValue : Reading Number := fun input => do
  let ⟨written, rest, shorter⟩ ← written (.ends .value) input
  match written.value with
  | some value => .ok ⟨value, rest, shorter⟩
  | none => .error ⟨.hugeNumber, Text.byteSize rest + written.unread⟩

/-- Passes over a number. -/
def skipNumber : Reading Unit := fun input => do
  let taken ← written .badNumber input
  .ok (taken.map fun _ => ())

end PathQuery.Json
