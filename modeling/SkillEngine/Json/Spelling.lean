import SkillEngine.Number.Literal

/-!
# Spelling of documents

The parts of a document that are spelled by characters: the spaces between values, the escapes of
one letter inside quotes, and the literals of numbers.
-/

namespace SkillEngine.Json

/-- The four characters that may stand between the parts of a document. -/
def isSpace (c : Char) : Bool := c == ' ' || c == '\n' || c == '\t' || c == '\r'

/-- The text from its first character on that is no space. -/
def skipSpace (text : List Char) : List Char := text.dropWhile isSpace

/-- The character that an escape of one letter stands for. -/
def letterEscape? : Char → Option Char
  | '"' => some '"'
  | '\\' => some '\\'
  | '/' => some '/'
  | 'b' => some '\x08'
  | 'f' => some '\x0c'
  | 'n' => some '\n'
  | 'r' => some '\r'
  | 't' => some '\t'
  | _ => none

/-- The digits at the front of a text. -/
def leadingDigits (text : List Char) : List Char := text.takeWhile Char.isDigit

/-- The text behind the digits at its front. -/
def behindDigits (text : List Char) : List Char := text.dropWhile Char.isDigit

/-- The fraction at the front of a text, if there is one; a point needs digits. -/
def fraction : List Char → Option (Option (List Char) × List Char)
  | '.' :: rest =>
    if (leadingDigits rest).isEmpty then none
    else some (some (leadingDigits rest), behindDigits rest)
  | text => some (none, text)

/-- The sign of an exponent: it lowers the value, or it does not. -/
def exponentSign : List Char → Bool × List Char
  | '-' :: rest => (true, rest)
  | '+' :: rest => (false, rest)
  | text => (false, text)

/-- The exponent at the front of a text, if there is one; it needs digits. -/
def exponent : List Char → Option (Option (Bool × List Char) × List Char)
  | [] => some (none, [])
  | c :: rest =>
    if c = 'e' ∨ c = 'E' then
      let (lowers, written) := exponentSign rest
      if (leadingDigits written).isEmpty then none
      else some (some (lowers, leadingDigits written), behindDigits written)
    else some (none, c :: rest)

/-- The literal of a number behind its sign.  The whole part has no leading zero. -/
def literal (negative : Bool) (text : List Char) : Option (NumberLiteral × List Char) := do
  let whole := leadingDigits text
  if whole.isEmpty || (whole.head? == some '0' && 1 < whole.length) then none
  else
    let (fraction, rest) ← fraction (behindDigits text)
    let (exponent, rest) ← exponent rest
    some (⟨negative, whole, fraction, exponent⟩, rest)

end SkillEngine.Json
