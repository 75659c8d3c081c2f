import SkillEngine.Template.StringForm
import SkillEngine.Text.Case

/-!
# Transforms

The named functions that a transform step can apply to a value.  An unknown name changes nothing.
-/

namespace SkillEngine.Transform

/-- The text of an element, where null is empty. -/
def elementForm : Json → List Char
  | .null => []
  | item => item.form

/-- The value as a list of lines. -/
def split (value : Json) : Json :=
  .array ((Text.cutLines value.form).map fun line => .string (String.ofList line))

/-- The elements of an array as the lines of one text; every other value stays. -/
def join : Json → Json
  | .array items => .string (String.ofList (Text.join ['\n'] (items.map elementForm)))
  | other => other

/-- Apply the transform of a name. -/
def apply (name : String) (value : Json) : Json :=
  match name with
  | "uppercase" => .string (String.ofList (Text.upper value.form))
  | "lowercase" => .string (String.ofList (Text.lower value.form))
  | "length" => .nat value.form.length
  | "split" => split value
  | "join" => join value
  | _ => value

end SkillEngine.Transform
