import SkillEngine.Number.Floating

/-!
# Numbers and their literals

A number of a document is a whole number of 64 bits or a floating point number.  A literal with
neither fraction nor exponent that fits 64 bits is a whole number; every other literal is read as
a double: the leading digits that fit 64 bits are rounded to a double, which is then multiplied
or divided by the double nearest to a power of ten.  A value beyond the greatest double is
refused and one below the smallest becomes zero.
-/

namespace SkillEngine

/-- A number of a document.  Single precision occurs only in documents that are written. -/
inductive Number where
  | integer (value : Int)
  | single (value : Single)
  | double (value : Double)
  deriving DecidableEq

/-- A number as it is spelled: sign, whole part, fraction and exponent. -/
structure NumberLiteral where
  negative : Bool
  whole : List Char
  fraction : Option (List Char)
  exponent : Option (Bool × List Char)
  deriving DecidableEq

namespace NumberLiteral

/-- One above the greatest whole number of 64 bits without a sign. -/
def wordLimit : Nat := twoTo 64

/-- One above the greatest exponent that is told apart. -/
def exponentLimit : Nat := twoTo 31

/-- The greatest power of ten with which a double is scaled in one step. -/
def greatestStep : Nat := 308

/-- Append digits to a whole number as long as it fits 64 bits, and return the digits left. -/
def takeDigits (value : Nat) : List Char → Nat × List Char
  | [] => (value, [])
  | digit :: rest =>
    let longer := value * 10 + (digit.toNat - '0'.toNat)
    if longer < wordLimit then takeDigits longer rest else (value, digit :: rest)

/-- The double nearest to a power of ten. -/
def powerOfTen (exponent : Nat) : Double := Floating.ofInt (tenTo exponent)

/-- Divide by a power of ten, in steps no greater than the greatest one. -/
def scaleDown (value : Double) (exponent : Nat) : Double :=
  if value.isZero then value
  else if exponent ≤ greatestStep then value.div (powerOfTen exponent)
  else scaleDown (value.div (powerOfTen greatestStep)) (exponent - greatestStep)
  termination_by exponent
  decreasing_by
    have : 0 < greatestStep := by decide
    omega

/-- Multiply by a power of ten, or give nothing when the product is too great. -/
def scaleUp? (value : Double) (exponent : Nat) : Option Double :=
  if value.isZero then some value
  else if exponent ≤ greatestStep then
    let scaled := value.mul (powerOfTen exponent)
    if scaled.isFinite then some scaled else none
  else none

/-- The double that a literal denotes, if it is not too great. -/
def double? (literal : NumberLiteral) : Option Double :=
  let fraction := literal.fraction.getD []
  let (leading, wholeLeft) := takeDigits 0 literal.whole
  let (digits, fractionLeft) := takeDigits leading fraction
  let shift : Int := wholeLeft.length - (fraction.length - fractionLeft.length : Nat)
  let (lowers, size) := match literal.exponent with
    | some (lowers, written) => (lowers, Nat.ofDigitChars 10 written 0)
    | none => (false, 0)
  let absolute : Option Double :=
    if exponentLimit ≤ size then if digits ≠ 0 && !lowers then none else some (.zero false)
    else
      let exponent : Int := if lowers then shift - size else shift + size
      if exponent < 0 then some (scaleDown (.ofInt digits) exponent.natAbs)
      else scaleUp? (.ofInt digits) exponent.natAbs
  absolute.map fun value => if literal.negative then value.neg else value

/-- The number that a literal denotes, if it is not too great. -/
def value? (literal : NumberLiteral) : Option Number :=
  let whole := Nat.ofDigitChars 10 literal.whole 0
  match literal.fraction, literal.exponent with
  | none, none =>
    if literal.negative then
      if 0 < whole && whole ≤ wordLimit / 2 then some (.integer (-whole))
      else literal.double?.map .double
    else if whole < wordLimit then some (.integer whole)
    else literal.double?.map .double
  | _, _ => literal.double?.map .double

end NumberLiteral

end SkillEngine
