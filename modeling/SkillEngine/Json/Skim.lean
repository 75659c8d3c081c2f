import SkillEngine.Json.Spelling
import SkillEngine.Text.Hexadecimal

/-!
# Skimming documents

A skimmer finds the end of a value and makes nothing of it.  It checks the spelling alone: a number
may be too great for any format, an escape may name half a character, and there is no limit to
nesting, since the brackets that are open stand in a list.
-/

namespace SkillEngine.Json

/-- What an open bracket encloses. -/
inductive Enclosure where
  | array
  | object

/-- What a skimmer expects next: a value, the name of a field, or what follows a value. -/
inductive Expectation where
  | value
  | name
  | separator

/-- The text behind a quoted text, whose opening quote was passed. -/
def skimQuoted : List Char → Option (List Char)
  | [] => none
  | '"' :: rest => some rest
  | '\\' :: 'u' :: a :: b :: c :: d :: rest =>
    if [a, b, c, d].all fun digit => (Text.hexValue? digit).isSome then skimQuoted rest else none
  | '\\' :: letter :: rest => if (letterEscape? letter).isSome then skimQuoted rest else none
  | c :: rest => if c < ' ' then none else skimQuoted rest

/-- The words that stand for values. -/
def valueWords : List String := ["null", "true", "false"]

/-- The text behind a value without brackets. -/
def skimPlain (text : List Char) : Option (List Char) :=
  match text with
  | '"' :: rest => skimQuoted rest
  | '-' :: rest => (literal true rest).map (·.2)
  | _ =>
    match valueWords.find? (·.toList.isPrefixOf text) with
    | some word => some (text.drop word.length)
    | none => (literal false text).map (·.2)

/-- The text behind a value, of which `opened` lists the open brackets, the innermost first. -/
def skimFrom : Nat → Expectation → (opened : List Enclosure) → List Char → Option (List Char)
  | 0, _, _, _ => none
  | fuel + 1, .value, opened, text =>
    match skipSpace text with
    | '[' :: rest =>
      match skipSpace rest with
      | ']' :: rest => skimFrom fuel .separator opened rest
      | rest => skimFrom fuel .value (.array :: opened) rest
    | '{' :: rest =>
      match skipSpace rest with
      | '}' :: rest => skimFrom fuel .separator opened rest
      | rest => skimFrom fuel .name (.object :: opened) rest
    | text =>
      match skimPlain text with
      | some rest => skimFrom fuel .separator opened rest
      | none => none
  | fuel + 1, .name, opened, text =>
    match skipSpace text with
    | '"' :: rest =>
      match (skimQuoted rest).map skipSpace with
      | some (':' :: rest) => skimFrom fuel .value opened rest
      | _ => none
    | _ => none
  | _, .separator, [], text => some text
  | fuel + 1, .separator, enclosure :: opened, text =>
    match enclosure, skipSpace text with
    | .array, ',' :: rest => skimFrom fuel .value (.array :: opened) rest
    | .object, ',' :: rest => skimFrom fuel .name (.object :: opened) rest
    | .array, ']' :: rest | .object, '}' :: rest => skimFrom fuel .separator opened rest
    | _, _ => none

/-- The text behind a value; every step passes at least one character. -/
def skim? (text : List Char) : Option (List Char) := skimFrom (text.length + 1) .value [] text

end SkillEngine.Json
