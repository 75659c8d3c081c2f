import SkillEngine.Json.Basic
import SkillEngine.Text.Hexadecimal
import SkillEngine.Text.Pieces

/-!
# Plain values of configuration files

The values that are written without quotes: truth values, whole numbers in four bases, floating
point numbers, and dates and times.  Each is spelled by one token, which has to be used up.
-/

namespace SkillEngine.Toml

/-- The characters of plain values. -/
def isPlainChar (c : Char) : Bool :=
  c.isAlphanum || c == '_' || c == '+' || c == '-' || c == '.' || c == ':'

/-- Digits with single underscores between them, which do not count. -/
def digitRun? (isDigit : Char → Bool) (text : List Char) : Option (List Char) :=
  let runs := Text.cut (· == '_') text
  if runs.all fun run => !run.isEmpty && run.all isDigit then some runs.flatten else none

/-- The digits of a whole number in base ten, which has no leading zero. -/
def decimalRun? (text : List Char) : Option (List Char) := do
  let digits ← digitRun? Char.isDigit text
  if 1 < digits.length && digits.head? == some '0' then none else some digits

/-- A sign: it is there and negative, and the text behind it. -/
def sign : List Char → Bool × List Char
  | '-' :: rest => (true, rest)
  | '+' :: rest => (false, rest)
  | text => (false, text)

/-- The value of a digit in any base up to sixteen. -/
def digitBelow (base : Nat) (c : Char) : Bool :=
  match Text.hexValue? c with
  | some value => value < base
  | none => false

/-- A whole number in base two, eight or sixteen. -/
def basedInteger? (base : Nat) (text : List Char) : Option Int := do
  let digits ← digitRun? (digitBelow base) text
  some (digits.foldl (fun value c => value * base + (Text.hexValue? c).getD 0) 0 : Nat)

/-- A whole number. -/
def integer? (text : List Char) : Option Int :=
  match text with
  | '0' :: 'x' :: digits => basedInteger? 16 digits
  | '0' :: 'o' :: digits => basedInteger? 8 digits
  | '0' :: 'b' :: digits => basedInteger? 2 digits
  | _ => do
    let (negative, text) := sign text
    let absolute : Int := Nat.ofDigitChars 10 (← decimalRun? text) 0
    some (if negative then -absolute else absolute)

/-- Whole numbers have at most 128 bits. -/
def isReadableInteger (value : Int) : Bool := -(twoTo 127) ≤ value && value < twoTo 128

/-- Exponents of ten beyond this lead out of every binary format. -/
def decimalBound : Nat := 400

/-- The double nearest to a decimal; one beyond the greatest is refused. -/
def nearestDouble? (negative : Bool) (digits : Nat) (exponent : Int) : Option Double :=
  let leading : Int := exponent + (Nat.toDigits 10 digits).length
  if digits = 0 ∨ leading < -decimalBound then some (.zero negative)
  else if decimalBound < leading then none
  else
    let value := Floating.ofDecimal negative digits exponent
    if value.isFinite then some value else none

/-- The exponent behind a mantissa, if there is one. -/
def exponent? : List Char → Option Int
  | [] => some 0
  | _ :: text => do
    let (negative, text) := sign text
    let size : Int := Nat.ofDigitChars 10 (← digitRun? Char.isDigit text) 0
    some (if negative then -size else size)

/-- The digits behind the point of a mantissa, if there is one. -/
def fraction? : List Char → Option (List Char)
  | [] => some []
  | _ :: text => digitRun? Char.isDigit text

/-- A mantissa ends at its exponent. -/
def endsMantissa (c : Char) : Bool := c == 'e' || c == 'E'

/-- A floating point number with a fraction or an exponent. -/
def decimal? (negative : Bool) (text : List Char) : Option Double := do
  let mantissa := text.takeWhile (!endsMantissa ·)
  let whole := mantissa.takeWhile (· != '.')
  if whole.length = text.length then none
  else
    let whole ← decimalRun? whole
    let fraction ← fraction? (mantissa.dropWhile (· != '.'))
    let exponent ← exponent? (text.dropWhile (!endsMantissa ·))
    nearestDouble? negative (Nat.ofDigitChars 10 (whole ++ fraction) 0)
      (exponent - fraction.length)

/-- A floating point number. -/
def double? (text : List Char) : Option Double :=
  let (negative, text) := sign text
  if text = "inf".toList then some (.infinity negative)
  else if text = "nan".toList then some .nan
  else decimal? negative text

/-- A number of exactly so many digits that lies in a range. -/
def field? (width least greatest : Nat) (text : List Char) : Option Nat :=
  let value := Nat.ofDigitChars 10 text 0
  if text.length = width && text.all Char.isDigit && least ≤ value && value ≤ greatest then
    some value
  else none

/-- The days of a month. -/
def daysIn (year month : Nat) : Nat :=
  if month = 2 then
    if year % 400 = 0 ∨ (year % 4 = 0 ∧ year % 100 ≠ 0) then 29 else 28
  else if month = 4 ∨ month = 6 ∨ month = 9 ∨ month = 11 then 30
  else 31

/-- The text is a date. -/
def isDate (text : List Char) : Bool :=
  match Text.cut (· == '-') text with
  | [year, month, day] =>
    match field? 4 0 9999 year, field? 2 1 12 month with
    | some year, some month => (field? 2 1 (daysIn year month) day).isSome
    | _, _ => false
  | _ => false

/-- The text is a number of seconds, with or without a fraction. -/
def isSeconds (text : List Char) : Bool :=
  (field? 2 0 60 (text.takeWhile (· != '.'))).isSome &&
    match text.dropWhile (· != '.') with
    | [] => true
    | _ :: digits => !digits.isEmpty && digits.all Char.isDigit

/-- The text is a time of day. -/
def isTime (text : List Char) : Bool :=
  match Text.cut (· == ':') text with
  | hour :: minute :: seconds =>
    (field? 2 0 23 hour).isSome && (field? 2 0 59 minute).isSome &&
      match seconds with
      | [] => true
      | [seconds] => isSeconds seconds
      | _ => false
  | _ => false

/-- The text is an offset from universal time. -/
def isOffset (text : List Char) : Bool :=
  match Text.cut (· == ':') text with
  | [hour, minute] => (field? 2 0 23 hour).isSome && (field? 2 0 59 minute).isSome
  | _ => false

/-- An offset starts here. -/
def startsOffset (c : Char) : Bool := c == 'Z' || c == 'z' || c == '+' || c == '-'

/-- The text is a time of day that may have an offset. -/
def isOffsetTime (text : List Char) : Bool :=
  isTime (text.takeWhile (!startsOffset ·)) &&
    match text.dropWhile (!startsOffset ·) with
    | [] => true
    | [mark] => mark == 'Z' || mark == 'z'
    | _ :: offset => isOffset offset

/-- The text is a date, a time of day, or both. -/
def isDateTime (text : List Char) : Bool :=
  match text.drop 10 with
  | [] => isDate text || isTime text
  | mark :: time =>
    isTime text ||
      (isDate (text.take 10) && (mark == 'T' || mark == 't' || mark == ' ') && isOffsetTime time)

/-- The field that marks the document of a date or time. -/
def dateTimeField : String := "datetime"

/-- The value that a token spells. -/
def plainValue? (text : List Char) : Option Json :=
  if text = "true".toList then some (.bool true)
  else if text = "false".toList then some (.bool false)
  else if isDateTime text then
    some (.object [(dateTimeField, .string (String.ofList text))])
  else
    match integer? text with
    | some value => if isReadableInteger value then some (.int value) else none
    | none => (double? text).map fun value => .number (.double value)

end SkillEngine.Toml
