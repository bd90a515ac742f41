/-
This file finds the shortest decimal for a binary number: among the decimals that
lie closer to the number than to any other number of the format, or on the border
where the number wins, one with the fewest digits, and of those the nearest. The
search is exact arithmetic on natural numbers.
-/

namespace PathQuery.Decimal

/-! ### Binary numbers and the decimals around them -/

/-- A positive number `significand · 2 ^ exponent` of the binary format. -/
structure Binary where
  significand : Nat
  exponent : Int

/-- A decimal `digits · 10 ^ exponent`. -/
structure Shortest where
  digits : Nat
  exponent : Int
  deriving DecidableEq

/-- The number of bits after the leading one in the significand of a normal number. -/
def fractionBits : Nat := 52

/-- The exponent of the smallest numbers of the format. -/
def leastExponent : Int := -1074

/-- The binary number that a bit pattern without sign stands for. -/
def Binary.ofBits (bits : Nat) : Binary :=
  let fraction := bits % Nat.pow 2 fractionBits
  let scale := bits / Nat.pow 2 fractionBits
  if scale = 0 then ⟨fraction, leastExponent⟩
  else ⟨Nat.pow 2 fractionBits + fraction, leastExponent + (scale - 1 : Nat)⟩

/-- A fraction of natural numbers. -/
structure Ratio where
  numerator : Nat
  denominator : Nat

namespace Ratio

/-- The fraction multiplied by a power of a base. -/
def scale (ratio : Ratio) (base : Nat) : Int → Ratio
  | .ofNat power => ⟨ratio.numerator * Nat.pow base power, ratio.denominator⟩
  | .negSucc power => ⟨ratio.numerator, ratio.denominator * Nat.pow base (power + 1)⟩

end Ratio

/-- The decimals that read back as one number: those between two quarters of its unit below and
two above, counted in quarters, with the ends included or not. Below a power of two the
neighbouring number is twice as near. -/
structure Interval where
  low : Nat
  middle : Nat
  high : Nat
  closed : Bool
  /-- The exponent of two that a quarter stands for. -/
  exponent : Int

/-- The interval of the decimals that read back as a number. -/
def Binary.interval (binary : Binary) : Interval :=
  let isPower := binary.significand = Nat.pow 2 fractionBits && leastExponent < binary.exponent
  let middle := 4 * binary.significand
  ⟨middle - (if isPower then 1 else 2), middle, middle + 2, binary.significand % 2 = 0,
    binary.exponent - 2⟩

/-! ### The search -/

/-- Whether `digits` units of a grid lie in an interval. The fraction says how many quarters of the
interval make a unit of the grid. -/
def Interval.holds (interval : Interval) (unit : Ratio) (digits : Nat) : Bool :=
  let point := digits * unit.numerator
  let low := interval.low * unit.denominator
  let high := interval.high * unit.denominator
  if interval.closed then low ≤ point && point ≤ high else low < point && point < high

/-- The point of a grid that lies in an interval nearest to its middle. Only the two neighbours of
the middle come into question; halfway between them the even one is taken. -/
def Interval.nearest? (interval : Interval) (unit : Ratio) : Option Nat :=
  let middle := interval.middle * unit.denominator
  let below := middle / unit.numerator
  let above := below + 1
  match interval.holds unit below, interval.holds unit above with
  | false, false => none
  | true, false => some below
  | false, true => some above
  | true, true =>
    match compare (middle - below * unit.numerator) (above * unit.numerator - middle) with
    | .lt => some below
    | .gt => some above
    | .eq => some (if below % 2 = 0 then below else above)

/-- Searches ever finer grids, the next of them with the given exponent of ten. -/
def Interval.search (interval : Interval) : (grids : Nat) → (exponent : Int) → Shortest
  | 0, exponent => ⟨interval.middle, exponent⟩
  | grids + 1, exponent =>
    let unit := (Ratio.mk 1 1).scale 10 exponent |>.scale 2 (-interval.exponent)
    match interval.nearest? unit with
    | some digits => ⟨digits, exponent⟩
    | none => interval.search grids (exponent - 1)

/-- The number of digits that a natural number is written with. -/
def digitCount (number : Nat) : Nat := (Nat.toDigits 10 number).length

/-- The exponent of a power of ten that is greater than the number. -/
def Interval.ceiling (interval : Interval) : Int :=
  let value := (Ratio.mk interval.middle 1).scale 2 interval.exponent
  if value.denominator ≤ value.numerator then digitCount (value.numerator / value.denominator)
  else 2 - (digitCount (value.denominator / value.numerator) : Int)

/-- The number of grids to search: seventeen digits always suffice, and the search starts at most
two powers of ten too high. -/
def gridCount : Nat := 20

/-- The shortest decimal for a positive number given by its bit pattern. -/
def shortest (bits : Nat) : Shortest :=
  let interval := (Binary.ofBits bits).interval
  interval.search gridCount interval.ceiling

/-! ### Digits and points -/

/-- The digits of a decimal. -/
def Shortest.letters (decimal : Shortest) : List Char :=
  Nat.toDigits 10 decimal.digits

/-- The number of digits before the point, negative where zeros follow it. -/
def Shortest.point (decimal : Shortest) : Int :=
  decimal.letters.length + decimal.exponent

/-- The decimal written without an exponent, with at least one digit on either side of the
point. -/
def Shortest.positional (decimal : Shortest) : List Char :=
  let letters := decimal.letters
  match decimal.point with
  | .negSucc zeros => '0' :: '.' :: List.replicate (zeros + 1) '0' ++ letters
  | .ofNat 0 => '0' :: '.' :: letters
  | .ofNat point =>
    let before := letters.take point ++ List.replicate (point - letters.length) '0'
    let after := letters.drop point
    before ++ '.' :: (if after.isEmpty then ['0'] else after)

end PathQuery.Decimal
