import SkillEngine.Template.StringForm

/-!
# Templates

A template is a text with slots such as `{{name}}`: two opening braces, one or more ASCII letters,
digits or underscores, and two closing braces.  Filling puts the text of a value in the place of
each slot whose name has one.  Everything else stays as it is, and what was put in is not read
again.
-/

namespace SkillEngine.Template

/-- The characters that a slot's name may hold. -/
def isNameChar (c : Char) : Bool := c.isAlphanum || c == '_'

/-- The name of the slot at the front of a text, if a slot stands there. -/
def slotName? : List Char → Option (List Char)
  | '{' :: '{' :: rest =>
    let name := rest.takeWhile isNameChar
    match rest.dropWhile isNameChar with
    | '}' :: '}' :: _ => if name.isEmpty then none else some name
    | _ => none
  | _ => none

/-- A part of a template: a character that stands for itself, or a slot. -/
inductive Piece where
  | char (c : Char)
  | slot (name : List Char)
  deriving DecidableEq

/-- The text of a slot. -/
def slotText (name : List Char) : List Char := '{' :: '{' :: (name ++ ['}', '}'])

/-- The text of the slot of a name. -/
def slot (name : String) : String := String.ofList (slotText name.toList)

/-- The text of a part. -/
def Piece.text : Piece → List Char
  | char c => [c]
  | slot name => slotText name

/-- The parts of a template behind `skip` characters, found from left to right. -/
def piecesFrom : Nat → List Char → List Piece
  | _, [] => []
  | skip + 1, _ :: rest => piecesFrom skip rest
  | 0, c :: rest =>
    match slotName? (c :: rest) with
    | some name => .slot name :: piecesFrom (name.length + 3) rest
    | none => .char c :: piecesFrom 0 rest

/-- The parts of a template. -/
def pieces (template : List Char) : List Piece := piecesFrom 0 template

/-- The text that takes the place of a part. -/
def fillPiece (data : Json.Object) : Piece → List Char
  | .char c => [c]
  | .slot name =>
    match data.find? (String.ofList name) with
    | some value => value.form
    | none => slotText name

/-- The template with its slots filled from the data. -/
def fillChars (template : List Char) (data : Json.Object) : List Char :=
  (pieces template).flatMap (fillPiece data)

/-- The template with its slots filled from the data. -/
def fill (template : String) (data : Json.Object) : String :=
  String.ofList (fillChars template.toList data)

/-- The name in a part, if it is a slot. -/
def Piece.name? : Piece → Option String
  | char _ => none
  | slot name => some (String.ofList name)

/-- The names of the slots in the order of their first appearance. -/
def placeholders (template : String) : List String :=
  ((pieces template.toList).filterMap Piece.name?).eraseDups

end SkillEngine.Template
