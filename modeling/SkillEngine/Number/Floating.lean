import SkillEngine.Number.Power

/-!
# Binary floating point numbers

Numbers of a binary interchange format as sign and magnitude bits.  A finite number denotes the
ratio of two natural numbers, and every operation is exact arithmetic on ratios followed by one
rounding to nearest, where a tie goes to the even neighbour.
-/

namespace SkillEngine

/-- A binary format: the bits of the fraction and of the exponent. -/
structure FloatFormat where
  fractionBits : Nat
  exponentBits : Nat
  deriving DecidableEq

namespace FloatFormat

/-- Double precision. -/
abbrev binary64 : FloatFormat := ⟨52, 11⟩

/-- Single precision. -/
abbrev binary32 : FloatFormat := ⟨23, 8⟩

/-- The bits of a magnitude: everything but the sign. -/
abbrev width (format : FloatFormat) : Nat := format.fractionBits + format.exponentBits

/-- The power of two that is the distance between the smallest numbers. -/
def leastExponent (format : FloatFormat) : Int :=
  2 - twoTo (format.exponentBits - 1) - format.fractionBits

/-- The magnitude bits of infinity; greater bits are not numbers. -/
def infinityBits (format : FloatFormat) : Nat :=
  (twoTo format.exponentBits - 1) * twoTo format.fractionBits

end FloatFormat

/-- The quotient rounded to the nearest natural number, a tie to the even one. -/
def roundHalfEven (numerator denominator : Nat) : Nat :=
  let quotient := numerator / denominator
  let remainder := numerator % denominator
  if denominator < 2 * remainder ∨ (2 * remainder = denominator ∧ quotient % 2 = 1) then
    quotient + 1
  else quotient

/-- The quotient rounded to the nearest natural number, a tie to the greater one. -/
def roundHalfUp (numerator denominator : Nat) : Nat :=
  (2 * numerator + denominator) / (2 * denominator)

/-- A number of a binary format. -/
structure Floating (format : FloatFormat) where
  negative : Bool
  magnitude : BitVec format.width
  deriving DecidableEq

/-- A double precision number. -/
abbrev Double := Floating FloatFormat.binary64

/-- A single precision number. -/
abbrev Single := Floating FloatFormat.binary32

namespace Floating

variable {format : FloatFormat}

/-- Zero of either sign. -/
def zero (negative : Bool) : Floating format := ⟨negative, 0⟩

/-- Infinity of either sign. -/
def infinity (negative : Bool) : Floating format :=
  ⟨negative, BitVec.ofNat _ format.infinityBits⟩

/-- The value that is not a number. -/
def nan : Floating format := ⟨false, BitVec.ofNat _ (format.infinityBits + 1)⟩

/-- A finite number. -/
def isFinite (x : Floating format) : Bool := x.magnitude.toNat < format.infinityBits

/-- Not a number. -/
def isNaN (x : Floating format) : Bool := format.infinityBits < x.magnitude.toNat

/-- Zero of either sign. -/
def isZero (x : Floating format) : Bool := x.magnitude == 0

/-- The number with the other sign. -/
def neg (x : Floating format) : Floating format := { x with negative := !x.negative }

/-- The exponent field. -/
def exponentField (x : Floating format) : Nat := x.magnitude.toNat / twoTo format.fractionBits

/-- The whole number that, times a power of two, is the absolute value of a finite number. -/
def significand (x : Floating format) : Nat :=
  x.magnitude.toNat % twoTo format.fractionBits +
    if x.exponentField = 0 then 0 else twoTo format.fractionBits

/-- The exponent of that power of two. -/
def exponent (x : Floating format) : Int :=
  format.leastExponent + (x.exponentField - 1 : Nat)

/-- The numerator of the absolute value of a finite number. -/
def numerator (x : Floating format) : Nat := x.significand * twoTo x.exponent.toNat

/-- The denominator of the absolute value of a finite number. -/
def denominator (x : Floating format) : Nat := twoTo (-x.exponent).toNat

/-- The exponent of the greatest power of two that is at most a positive ratio. -/
def leadingExponent (numerator denominator : Nat) : Int :=
  let guess : Int := numerator.log2 - denominator.log2
  if numerator * twoTo (-guess).toNat < denominator * twoTo guess.toNat then guess - 1 else guess

/-- The exponent of the last binary place that the format keeps of a positive ratio. -/
def lastPlace (format : FloatFormat) (numerator denominator : Nat) : Int :=
  max (leadingExponent numerator denominator - format.fractionBits) format.leastExponent

/-- The number nearest to a ratio; a ratio beyond the greatest number becomes infinity. -/
def ofRatio (negative : Bool) (numerator denominator : Nat) : Floating format :=
  if numerator = 0 then zero negative
  else
    let place := lastPlace format numerator denominator
    let units := roundHalfEven (numerator * twoTo (-place).toNat) (denominator * twoTo place.toNat)
    let bits := units + (place - format.leastExponent).toNat * twoTo format.fractionBits
    ⟨negative, BitVec.ofNat _ (min bits format.infinityBits)⟩

/-- The number nearest to a whole number. -/
def ofInt (n : Int) : Floating format := ofRatio (n < 0) n.natAbs 1

/-- The number nearest to a whole number times a power of ten. -/
def ofDecimal (negative : Bool) (digits : Nat) (exponent : Int) : Floating format :=
  ofRatio negative (digits * tenTo exponent.toNat) (tenTo (-exponent).toNat)

/-- The product of two finite numbers, rounded. -/
def mul (x y : Floating format) : Floating format :=
  ofRatio (x.negative != y.negative) (x.numerator * y.numerator) (x.denominator * y.denominator)

/-- The quotient of two finite numbers, rounded; the second is not zero. -/
def div (x y : Floating format) : Floating format :=
  ofRatio (x.negative != y.negative) (x.numerator * y.denominator) (x.denominator * y.numerator)

/-- The number of another format nearest to this one. -/
def convert {other : FloatFormat} (x : Floating format) : Floating other :=
  if x.isNaN then nan
  else if x.isFinite then ofRatio x.negative x.numerator x.denominator
  else infinity x.negative

/-- The whole number that a finite number is, if it is one. -/
def toInt? (x : Floating format) : Option Int :=
  if x.isFinite && x.numerator % x.denominator == 0 then
    let absolute : Int := (x.numerator / x.denominator : Nat)
    some (if x.negative then -absolute else absolute)
  else none

/-- A number from zero to one; zero of either sign is one of them. -/
def inUnitInterval (x : Floating format) : Bool :=
  x.isZero || (x.isFinite && !x.negative && x.numerator ≤ x.denominator)

end Floating

end SkillEngine
