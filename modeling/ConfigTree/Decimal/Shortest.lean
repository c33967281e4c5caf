import ConfigTree.Binary

/-!
# Shortest decimal text

The text of a floating-point number is the shortest decimal that reads back as the number; of
several with equally many digits it is the nearest one. The decimals that read back form an interval
around the number that reaches half-way to its neighbours, ends included when the significand is
even. Decimals with a given number of digits form a grid, and if the interval holds a point of the
grid, it holds one of the two points next to the number; so looking at these two on finer and finer
grids finds the shortest decimal.
-/

namespace ConfigTree

/-- A decimal number `digits * 10 ^ exponent`. -/
structure Decimal where
  digits : Nat
  exponent : Int
  deriving DecidableEq

namespace Decimal

/-- The decimals that read back as a number: all between two ends, as multiples of
`1 / denominator`. -/
structure Interval where
  low : Nat
  value : Nat
  high : Nat
  denominator : Nat
  /-- Whether the ends belong to the interval. -/
  closed : Bool

/-- The decimals that read back as a positive number of a format. Below a power of two the
neighbour is only half as far as above it. -/
def Interval.around (format : Binary.Format) (number : Binary.Magnitude) : Interval :=
  let scale := Nat.pow 2 (number.exponent - 2).toNat
  let narrow :=
    number.significand = Nat.pow 2 (format.precision - 1) && format.least < number.exponent
  { low := (4 * number.significand - (if narrow then 1 else 2)) * scale
    value := 4 * number.significand * scale
    high := (4 * number.significand + 2) * scale
    denominator := Nat.pow 2 (2 - number.exponent).toNat
    closed := number.significand % 2 = 0 }

/-- The number of decimal digits of a natural number. -/
def digitCount (number : Nat) : Nat :=
  (Nat.toDigits 10 number).length

namespace Interval

/-- The exponent of the first digit of the number. -/
def firstDigit (interval : Interval) : Int :=
  if interval.denominator ≤ interval.value then
    digitCount (interval.value / interval.denominator) - 1
  else -digitCount (interval.denominator / interval.value)

/-- Whether a fraction of the denominator lies in the interval, both multiplied by a factor. -/
def contains (interval : Interval) (factor point : Nat) : Bool :=
  if interval.closed then
    interval.low * factor ≤ point && point ≤ interval.high * factor
  else interval.low * factor < point && point < interval.high * factor

/-- The point of a grid that is in the interval and nearest to the number; of two equally near ones
the even one. -/
def onGrid? (interval : Interval) (exponent : Int) : Option Decimal :=
  -- One step of the grid is `step`, where the number is `value * factor`.
  let step := interval.denominator * Nat.pow 10 exponent.toNat
  let factor := Nat.pow 10 (-exponent).toNat
  let value := interval.value * factor
  let below := value / step
  let distanceBelow := value - below * step
  let distanceAbove := (below + 1) * step - value
  let belowIn := interval.contains factor (below * step)
  let aboveIn := interval.contains factor ((below + 1) * step)
  let preferBelow :=
    distanceBelow < distanceAbove || (distanceBelow == distanceAbove && below % 2 == 0)
  if belowIn && (preferBelow || !aboveIn) then some ⟨below, exponent⟩
  else if aboveIn then some ⟨below + 1, exponent⟩
  else none

/-- Looks for a point on grids with more and more digits. -/
def search (interval : Interval) (first : Int) : Nat → Decimal
  | 0 => ⟨0, 0⟩
  | more + 1 =>
    match interval.onGrid? first with
    | some found => found
    | none => interval.search (first - 1) more

end Interval

/-- Moves zeros at the end of the digits into the exponent, at most as many as given. -/
def dropZeros (digits : Nat) (exponent : Int) : Nat → Decimal
  | 0 => ⟨digits, exponent⟩
  | more + 1 =>
    if digits % 10 = 0 then dropZeros (digits / 10) (exponent + 1) more else ⟨digits, exponent⟩

/-- The shortest decimal of a positive number: the most digits that a format of up to 64 bits may
need are 17. -/
def shortest (format : Binary.Format) (number : Binary.Magnitude) : Decimal :=
  let interval := Interval.around format number
  let found := interval.search interval.firstDigit 17
  dropZeros found.digits found.exponent 17

/-- How a decimal is laid out. -/
structure Layout where
  /-- The least exponent of the first digit that is written without an exponent. -/
  leastPlain : Int
  /-- The largest exponent of the first digit that is written without an exponent. -/
  largestPlain : Int

namespace Layout

/-- Puts a row of digits around a point, with at least one digit on each side of it. -/
def plain (digits : List Char) (first : Int) : List Char :=
  if first < 0 then
    ['0', '.'] ++ List.replicate (-first - 1).toNat '0' ++ digits
  else
    let whole := first.toNat + 1
    let fraction := digits.drop whole
    digits.take whole ++ List.replicate (whole - digits.length) '0' ++ ['.'] ++
      (if fraction = [] then ['0'] else fraction)

/-- Writes one digit in front of the point, no point behind a single digit, and the exponent with
its sign. -/
def scientific (digits : List Char) (first : Int) : List Char :=
  let exponent := (if first < 0 then ['-'] else ['+']) ++ Nat.toDigits 10 first.natAbs
  match digits with
  | [] => []
  | [digit] => digit :: 'e' :: exponent
  | digit :: fraction => digit :: '.' :: fraction ++ 'e' :: exponent

/-- The text of a decimal whose digits do not end in zero. -/
def write (layout : Layout) (decimal : Decimal) : List Char :=
  let digits := Nat.toDigits 10 decimal.digits
  let first := decimal.exponent + digits.length - 1
  if layout.leastPlain ≤ first && first ≤ layout.largestPlain then plain digits first
  else scientific digits first

end Layout

end Decimal

end ConfigTree
