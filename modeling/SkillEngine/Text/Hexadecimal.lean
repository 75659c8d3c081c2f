/-!
# Hexadecimal digits

The digits of base sixteen, and characters that are given by their number in that base.
-/

namespace SkillEngine.Text

/-- The value of a digit in base sixteen. -/
def hexValue? (c : Char) : Option Nat :=
  if '0' ≤ c ∧ c ≤ '9' then some (c.toNat - '0'.toNat)
  else if 'a' ≤ c ∧ c ≤ 'f' then some (c.toNat - 'a'.toNat + 10)
  else if 'A' ≤ c ∧ c ≤ 'F' then some (c.toNat - 'A'.toNat + 10)
  else none

/-- The small digit of a value below sixteen. -/
def hexDigit (value : Nat) : Char := (Nat.toDigits 16 value).headD '0'

/-- The number that digits of base sixteen stand for, behind those of a number before them. -/
def hexNumber (before : Nat) : List Char → Option Nat
  | [] => some before
  | c :: rest => do hexNumber (before * 16 + (← hexValue? c)) rest

/-- The character of a number, if there is one: surrogates have none. -/
def charOf? (code : Nat) : Option Char :=
  if code < 0xD800 ∨ (0xDFFF < code ∧ code < 0x110000) then some (Char.ofNat code) else none

end SkillEngine.Text
