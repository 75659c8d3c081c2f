import SkillEngine.Number.Floating

/-!
# Shortest decimals

A finite number is written with the fewest decimal digits that read back as the same number.  A
`FloatLayout` says how the digits are laid out: up to which exponents the decimal point stands in
place, how an exponent is written, and which of two equally near decimals is taken.
-/

namespace SkillEngine

/-- The exponent of the greatest power of ten that is at most a positive ratio. -/
def leadingDecimal (numerator denominator : Nat) : Int :=
  if denominator ≤ numerator then ((Nat.toDigits 10 (numerator / denominator)).length - 1 : Nat)
  else -(Nat.toDigits 10 ((denominator + numerator - 1) / numerator - 1)).length

/-- A whole number times a power of ten. -/
structure Decimal where
  digits : Nat
  exponent : Int
  deriving DecidableEq

namespace Floating

variable {format : FloatFormat}

/-- The decimal reads back as the number. -/
def readsBack (x : Floating format) (decimal : Decimal) : Bool :=
  ofDecimal x.negative decimal.digits decimal.exponent == x

/-- Of the two neighbours of a number on the grid of multiples of `10 ^ exponent`, the one that
reads back; of two the nearer, and of two equally near the one that `round` chooses. -/
def onGrid? (round : Nat → Nat → Nat) (x : Floating format) (exponent : Int) : Option Decimal :=
  let numerator := x.numerator * tenTo (-exponent).toNat
  let denominator := x.denominator * tenTo exponent.toNat
  let below : Decimal := ⟨numerator / denominator, exponent⟩
  let above : Decimal := ⟨numerator / denominator + 1, exponent⟩
  match x.readsBack below, x.readsBack above with
  | true, true => some (if round numerator denominator = below.digits then below else above)
  | true, false => some below
  | false, true => some above
  | false, false => none

/-- Seventeen digits are enough for every number of double precision. -/
def maxDigits : Nat := 17

/-- The decimal with the fewest digits that reads back as the finite number, which is not zero. -/
def shortest (round : Nat → Nat → Nat) (x : Floating format) : Decimal :=
  let leading := leadingDecimal x.numerator x.denominator
  match (List.range maxDigits).findSome? fun (more : Nat) => x.onGrid? round (leading - more) with
  | some decimal => decimal
  | none => ⟨x.numerator / x.denominator, 0⟩

end Floating

/-- How the digits of a number are laid out. -/
structure FloatLayout where
  /-- The least exponent of a leading digit that is written with the point in place. -/
  positionalFrom : Int
  /-- The least exponent above those that is written as an exponent again. -/
  positionalTo : Int
  /-- A whole number in positional form ends in `.0`. -/
  keepsPoint : Bool
  /-- Of two shortest decimals that are equally near, the greater one is written. -/
  tiesUp : Bool

namespace FloatLayout

/-- Double precision in a document: the point stands in place from `1e-5` up to below `1e16`. -/
def double : FloatLayout := ⟨-5, 16, true, false⟩

/-- Single precision in a document: the point stands in place from `1e-6` up to below `1e13`. -/
def single : FloatLayout := ⟨-6, 13, true, false⟩

/-- Running text and configuration files never use an exponent, and round a tie up. -/
def plain : FloatLayout := ⟨-400, 400, false, true⟩

/-- The same layout with `.0` after a whole number. -/
def plainWithPoint : FloatLayout := { plain with keepsPoint := true }

/-- How a layout rounds a ratio to a whole number. -/
def round (layout : FloatLayout) : Nat → Nat → Nat :=
  if layout.tiesUp then roundHalfUp else roundHalfEven

/-- The digits with the point in place; the first one counts `10 ^ leading`. -/
def positional (layout : FloatLayout) (digits : List Char) (leading : Int) : List Char :=
  if leading < 0 then
    '0' :: '.' :: (List.replicate (-leading - 1).toNat '0' ++ digits)
  else
    let whole := leading.toNat + 1
    if digits.length ≤ whole then
      digits ++ List.replicate (whole - digits.length) '0' ++
        if layout.keepsPoint then ['.', '0'] else []
    else digits.take whole ++ '.' :: digits.drop whole

/-- The digits with an exponent, which has a sign in any case. -/
def scientific (digits : List Char) (leading : Int) : List Char :=
  let mantissa := match digits with
    | first :: second :: more => first :: '.' :: second :: more
    | short => short
  mantissa ++ 'e' :: (if leading < 0 then '-' else '+') :: Nat.toDigits 10 leading.natAbs

/-- The text of a decimal that is not zero, without its sign. -/
def decimalText (layout : FloatLayout) (decimal : Decimal) : List Char :=
  let written := Nat.toDigits 10 decimal.digits
  let digits := (written.reverse.dropWhile (· == '0')).reverse
  let leading := decimal.exponent + (written.length - 1 : Nat)
  if layout.positionalFrom ≤ leading && leading < layout.positionalTo then
    layout.positional digits leading
  else scientific digits leading

/-- The text of a finite number. -/
def finiteText {format : FloatFormat} (layout : FloatLayout) (x : Floating format) : List Char :=
  (if x.negative then ['-'] else []) ++
    if x.isZero then layout.positional ['0'] 0 else layout.decimalText (x.shortest layout.round)

/-- The text of any number in running text. -/
def anyText {format : FloatFormat} (layout : FloatLayout) (x : Floating format) : String :=
  if x.isNaN then "NaN"
  else if x.isFinite then String.ofList (layout.finiteText x)
  else if x.negative then "-inf" else "inf"

end FloatLayout

end SkillEngine
