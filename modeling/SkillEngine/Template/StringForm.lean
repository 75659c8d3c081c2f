import SkillEngine.Json.Printer
import SkillEngine.Text.Pieces

/-!
# Values inside texts

The text of a value as it stands inside a filled template: strings as they are, whole doubles
below `10 ^ 15` without their fraction, arrays as their elements with commas between them, and
objects as compact documents.  A null is empty inside an array and spelled out elsewhere.
-/

namespace SkillEngine.Json

/-- Whole doubles lose their fraction up to this bound. -/
def wholeLimit : Nat := tenTo 15

/-- The text of a number. -/
def numberForm : Number → List Char
  | .double value =>
    match value.toInt? with
    | some whole => if whole.natAbs < wholeLimit then intText whole else numberText (.double value)
    | none => numberText (.double value)
  | other => numberText other

mutual

/-- The text of a value. -/
def form : Json → List Char
  | string value => value.toList
  | null => "null".toList
  | bool value => boolText value
  | number value => numberForm value
  | array items => Text.join [','] (itemForms items)
  | object fields => compactChars (object fields)

/-- The texts of the elements of an array, where null is empty. -/
def itemForms : List Json → List (List Char)
  | [] => []
  | null :: items => [] :: itemForms items
  | item :: items => form item :: itemForms items

end

/-- The text of a value as a string. -/
def formString (value : Json) : String := String.ofList value.form

end SkillEngine.Json
