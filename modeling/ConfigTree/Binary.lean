/-!
# Binary floating-point numbers

A format has significands of a number of bits and a range of exponents. A number of the format is a
sign with a significand times a power of two, an infinity, or no number at all. Everything is exact
integer arithmetic: a quotient is rounded to the nearest number of the format, a half goes to the
even significand, and what lies beyond the largest number becomes infinite.
-/

namespace ConfigTree.Binary

/-- The numbers `significand * 2 ^ exponent` with bounded significands and exponents. -/
structure Format where
  /-- The bits of a significand. -/
  precision : Nat
  /-- The least exponent, of the subnormal numbers. -/
  least : Int
  /-- The largest exponent. -/
  largest : Int
  /-- The name of the format. -/
  name : String

/-- The format of 64 bits. -/
def double : Format where
  precision := 53
  least := -1074
  largest := 971
  name := "f64"

/-- The format of 32 bits. -/
def single : Format where
  precision := 24
  least := -149
  largest := 104
  name := "f32"

/-- A non-negative number `significand * 2 ^ exponent`. -/
structure Magnitude where
  significand : Nat
  exponent : Int
  deriving DecidableEq

/-- A number with its sign, an infinity with its sign, or no number. -/
inductive Number where
  | finite (negative : Bool) (magnitude : Magnitude)
  | infinite (negative : Bool)
  | nan
  deriving DecidableEq

namespace Magnitude

/-- The numerator of a magnitude as a fraction. -/
def numerator (magnitude : Magnitude) : Nat :=
  magnitude.significand * Nat.pow 2 magnitude.exponent.toNat

/-- The denominator of a magnitude as a fraction. -/
def denominator (magnitude : Magnitude) : Nat :=
  Nat.pow 2 (-magnitude.exponent).toNat

end Magnitude

/-- The quotient of two numbers, rounded to the nearest integer and a half to the even one. -/
def roundQuotient (numerator denominator : Nat) : Nat :=
  let quotient := numerator / denominator
  let twice := 2 * (numerator % denominator)
  if denominator < twice || (twice == denominator && quotient % 2 == 1) then quotient + 1
  else quotient

/-- The exponent at which a positive quotient has a significand of the full number of bits, or the
least exponent if there is none. -/
def Format.exponentFor (format : Format) (numerator denominator : Nat) : Int :=
  let guess : Int := (numerator.log2 : Int) - denominator.log2 - format.precision + 1
  -- The quotient lies between a half of and twice the power of two that the logarithms suggest.
  let short :=
    numerator * Nat.pow 2 (-guess).toNat <
      Nat.pow 2 (format.precision - 1) * (denominator * Nat.pow 2 guess.toNat)
  max format.least (if short then guess - 1 else guess)

/-- The number of a format that is nearest to a quotient, if it is not beyond the largest one. -/
def Format.nearest (format : Format) (numerator denominator : Nat) : Option Magnitude :=
  if numerator = 0 then some ⟨0, format.least⟩
  else
    let exponent := format.exponentFor numerator denominator
    let significand :=
      roundQuotient (numerator * Nat.pow 2 (-exponent).toNat)
        (denominator * Nat.pow 2 exponent.toNat)
    let rounded : Magnitude :=
      if significand = Nat.pow 2 format.precision then
        ⟨Nat.pow 2 (format.precision - 1), exponent + 1⟩
      else ⟨significand, exponent⟩
    if format.largest < rounded.exponent then none else some rounded

/-- The product of two numbers, rounded. -/
def Format.multiply (format : Format) (first second : Magnitude) : Option Magnitude :=
  format.nearest (first.numerator * second.numerator) (first.denominator * second.denominator)

/-- The quotient of two numbers, rounded. -/
def Format.divide (format : Format) (first second : Magnitude) : Option Magnitude :=
  format.nearest (first.numerator * second.denominator) (first.denominator * second.numerator)

/-- The bits of a magnitude: an exponent field above a significand without its leading one. -/
def Format.magnitudeBits (format : Format) (magnitude : Magnitude) : Nat :=
  (magnitude.exponent - format.least).toNat * Nat.pow 2 (format.precision - 1) +
    magnitude.significand

/-- The bits of an infinity: the exponent field above the one of the largest numbers. -/
def Format.infiniteBits (format : Format) : Nat :=
  (format.largest - format.least + 2).toNat * Nat.pow 2 (format.precision - 1)

/-- The bit of the sign. -/
def Format.signBit (format : Format) (negative : Bool) : Nat :=
  -- The exponent field of an infinity has all bits set, so the next power of two is above it.
  if negative then format.infiniteBits + Nat.pow 2 (format.precision - 1) else 0

/-- The bits of a number in the interchange format; nothing for what is no number. -/
def Format.bits? (format : Format) : Number → Option Nat
  | .finite negative magnitude =>
    some (format.signBit negative + format.magnitudeBits magnitude)
  | .infinite negative => some (format.signBit negative + format.infiniteBits)
  | .nan => none

end ConfigTree.Binary
