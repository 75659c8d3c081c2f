/-!
# Punycode

Texts as plain letters, digits and hyphens.  The characters of ASCII stand first, and behind the
last hyphen each other character is inserted by a number, which says how far the place and the
code point lie behind those of the insertion before.  A number is written in base 36 with its
lowest digit first; the weights of the digits adapt to the numbers before.
-/

namespace SkillEngine.Text

/-- The value of a digit in base 36: small letters, then digits. -/
def punycodeDigit? (c : Char) : Option Nat :=
  if 'a' ≤ c ∧ c ≤ 'z' then some (c.toNat - 'a'.toNat)
  else if '0' ≤ c ∧ c ≤ '9' then some (c.toNat - '0'.toNat + 26)
  else none

/-- The least value of a digit behind which the number goes on, at a position counted in steps of
36. -/
def punycodeThreshold (bias position : Nat) : Nat := min 26 (max 1 (position - bias))

/-- A number at the front of a text, added to `sum` with the weight of its first digit. -/
def punycodeNumber? (bias : Nat) :
    (position weight sum : Nat) → List Char → Option (Nat × List Char)
  | _, _, _, [] => none
  | position, weight, sum, c :: rest =>
    match punycodeDigit? c with
    | none => none
    | some digit =>
      let threshold := punycodeThreshold bias position
      if digit < threshold then some (sum + digit * weight, rest)
      else
        punycodeNumber? bias (position + 36) (weight * (36 - threshold)) (sum + digit * weight)
          rest

/-- The bias that a scaled number leads to, from a count of steps on. -/
def punycodeBias (steps number : Nat) : Nat :=
  if 455 < number then punycodeBias (steps + 36) (number / 35)
  else steps + 36 * number / (number + 38)
  termination_by number
  decreasing_by exact Nat.div_lt_self (by omega) (by decide)

/-- The bias behind a number that made a text so long. -/
def punycodeNextBias (isFirst : Bool) (number length : Nat) : Nat :=
  let scaled := if isFirst then number / 700 else number / 2
  punycodeBias 0 (scaled + scaled / length)

/-- Insert the characters that a text says, none of which lies below `least`.  `start` is where
the counting of places goes on. -/
def punycodeInsert :
    Nat → (bias least start : Nat) → (isFirst : Bool) → (built : List Nat) → List Char →
      Option (List Nat)
  | _, _, _, _, _, built, [] => some built
  | 0, _, _, _, _, _, _ => none
  | fuel + 1, bias, least, start, isFirst, built, text => do
    let (reached, rest) ← punycodeNumber? bias 36 1 start text
    let length := built.length + 1
    let code := least + reached / length
    let place := reached % length
    if 0x10FFFF < code then none
    else
      punycodeInsert fuel (punycodeNextBias isFirst (reached - start) length) code (place + 1)
        false (built.insertIdx place code) rest

/-- The code points of a text that is written in this way. -/
def punycodeDecode? (text : List Char) : Option (List Nat) :=
  let inserted := (text.reverse.takeWhile (· != '-')).reverse
  let plain := text.take (text.length - inserted.length - 1)
  punycodeInsert inserted.length 72 128 0 true (plain.map Char.toNat) inserted

end SkillEngine.Text
