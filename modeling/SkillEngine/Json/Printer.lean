import SkillEngine.Json.Basic
import SkillEngine.Number.Shortest
import SkillEngine.Text.Hexadecimal

/-!
# Written documents

The text of a document, on one line or indented by two spaces.  Fields are written in the order
in which they stand.
-/

namespace SkillEngine.Json

/-- A character as it stands inside quotes: quotes, backslashes and control characters are
escaped, every other character stands for itself. -/
def escape (c : Char) : List Char :=
  if c = '"' then ['\\', '"']
  else if c = '\\' then ['\\', '\\']
  else if c = '\x08' then ['\\', 'b']
  else if c = '\t' then ['\\', 't']
  else if c = '\n' then ['\\', 'n']
  else if c = '\x0c' then ['\\', 'f']
  else if c = '\r' then ['\\', 'r']
  else if c < ' ' then
    ['\\', 'u', '0', '0', Text.hexDigit (c.toNat / 16), Text.hexDigit (c.toNat % 16)]
  else [c]

/-- A text in quotes. -/
def quote (text : String) : List Char := '"' :: (text.toList.flatMap escape ++ ['"'])

/-- The text of a whole number. -/
def intText (value : Int) : List Char :=
  (if value < 0 then ['-'] else []) ++ Nat.toDigits 10 value.natAbs

/-- The text of a number; a number that is not finite is written as null. -/
def numberText : Number → List Char
  | .integer value => intText value
  | .single value => if value.isFinite then FloatLayout.single.finiteText value else "null".toList
  | .double value => if value.isFinite then FloatLayout.double.finiteText value else "null".toList

/-- The words for the truth values. -/
def boolText (value : Bool) : List Char := if value then "true".toList else "false".toList

mutual

/-- The text of a document on one line. -/
def compactChars : Json → List Char
  | null => "null".toList
  | bool value => boolText value
  | number value => numberText value
  | string value => quote value
  | array items => '[' :: (compactItems items ++ [']'])
  | object fields => '{' :: (compactFields fields ++ ['}'])

/-- The items of an array with commas between them. -/
def compactItems : List Json → List Char
  | [] => []
  | [item] => compactChars item
  | item :: items => compactChars item ++ ',' :: compactItems items

/-- The fields of an object with commas between them. -/
def compactFields : List (String × Json) → List Char
  | [] => []
  | [(name, value)] => quote name ++ ':' :: compactChars value
  | (name, value) :: fields =>
    quote name ++ ':' :: (compactChars value ++ ',' :: compactFields fields)

end

/-- A new line at a depth. -/
def newLine (depth : Nat) : List Char := '\n' :: List.replicate (2 * depth) ' '

mutual

/-- The text of a document that starts at a depth, a line for each item and field. -/
def prettyChars (depth : Nat) : Json → List Char
  | array (item :: items) =>
    '[' :: (prettyItems (depth + 1) (item :: items) ++ newLine depth ++ [']'])
  | object (entry :: fields) =>
    '{' :: (prettyFields (depth + 1) (entry :: fields) ++ newLine depth ++ ['}'])
  | null => "null".toList
  | bool value => boolText value
  | number value => numberText value
  | string value => quote value
  | array [] => ['[', ']']
  | object [] => ['{', '}']

/-- The items of an array, each on a line of its own. -/
def prettyItems (depth : Nat) : List Json → List Char
  | [] => []
  | [item] => newLine depth ++ prettyChars depth item
  | item :: items => newLine depth ++ prettyChars depth item ++ ',' :: prettyItems depth items

/-- The fields of an object, each on a line of its own. -/
def prettyFields (depth : Nat) : List (String × Json) → List Char
  | [] => []
  | [(name, value)] =>
    newLine depth ++ quote name ++ ':' :: ' ' :: prettyChars depth value
  | (name, value) :: fields =>
    newLine depth ++ quote name ++ ':' :: ' ' ::
      (prettyChars depth value ++ ',' :: prettyFields depth fields)

end

/-- The text of a document on one line. -/
def compact (document : Json) : String := String.ofList document.compactChars

/-- The text of a document, indented. -/
def pretty (document : Json) : String := String.ofList (document.prettyChars 0)

end SkillEngine.Json
