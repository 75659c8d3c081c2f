import SkillEngine.Skill.Basic
import SkillEngine.Template.Basic

/-!
# Shaping outputs

How the outputs of several skills become one value, and how the result of a tool is brought into
form.
-/

namespace SkillEngine

/-- The elements that an output adds to an appended list: those of an array, or the output. -/
def appended : Json → List Json
  | .array items => items
  | other => [other]

/-- The fields of an object; a value that is no object has none. -/
def Json.fieldsOrEmpty : Json → Json.Object
  | .object fields => fields
  | _ => []

/-- Combine outputs.  Without a rule they stay a list. -/
def mergeOutputs (outputs : List Json) : Option ResultMerge → Json
  | none => .array outputs
  | some merge =>
    match merge.strategy, merge.template with
    | .append, _ => .array (outputs.flatMap appended)
    | .merge, _ => .object (Dict.ofList (outputs.flatMap Json.fieldsOrEmpty))
    | .template, some template =>
      .string (Template.fill template [("results", .array outputs)])
    | .template, none => .array outputs
    | .custom, _ => .array outputs

/-- Bring the result of a tool into form. -/
def ResultProcessing.apply (processing : ResultProcessing) (result : Json) : Json :=
  match processing.format, processing.template with
  | .raw, _ => result
  | .text, _ => .string result.formString
  | .json, _ => .string result.pretty
  | .markdown, some template => .string (Template.fill template result.fieldsOrEmpty)
  | .markdown, none => .string result.formString

end SkillEngine
