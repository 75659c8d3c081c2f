import SkillEngine.Json.Basic

/-!
# References

A string that starts with a dollar sign refers to the value of the name behind it.  Names are
looked up in the input first and among earlier results second; a reference without a value stays
what it is.
-/

namespace SkillEngine.Reference

/-- The name that a value refers to, if it is a reference. -/
def name? : Json → Option String
  | .string text =>
    match text.toList with
    | '$' :: name => some (String.ofList name)
    | _ => none
  | _ => none

/-- The value that a name has in the input or, failing that, among earlier results. -/
def find? (input prior : Json.Object) (name : String) : Option Json :=
  (input.find? name).or (prior.find? name)

/-- What a value stands for. -/
def resolve (value : Json) (input prior : Json.Object) : Json :=
  match name? value with
  | some name => (find? input prior name).getD value
  | none => value

/-- What the values of a mapping stand for. -/
def resolveAll (mapping input prior : Json.Object) : Json.Object :=
  mapping.mapValues fun value => resolve value input prior

end SkillEngine.Reference
