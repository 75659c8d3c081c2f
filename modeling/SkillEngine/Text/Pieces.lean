/-!
# Cutting and joining texts

A text is cut at every character of a class, or at every pair of line feeds, and the pieces are
joined again with a separator.  Cutting keeps every piece, the empty ones included, so it always
yields at least one piece.
-/

namespace SkillEngine.Text

/-- Put a character in front of the first piece. -/
def extend (c : Char) : List (List Char) → List (List Char)
  | [] => [[c]]
  | piece :: pieces => (c :: piece) :: pieces

/-- The pieces of a text between the characters of a class. -/
def cut (separates : Char → Bool) : List Char → List (List Char)
  | [] => [[]]
  | c :: rest => if separates c then [] :: cut separates rest else extend c (cut separates rest)

/-- The pieces of a text between line feeds. -/
def cutLines (text : List Char) : List (List Char) := cut (· == '\n') text

/-- The pieces of a text between pairs of line feeds, which are found from the left and do not
overlap. -/
def cutBlocks : List Char → List (List Char)
  | [] => [[]]
  | '\n' :: '\n' :: rest => [] :: cutBlocks rest
  | c :: rest => extend c (cutBlocks rest)

/-- The pieces one after another with the separator between each two. -/
def join (separator : List Char) : List (List Char) → List Char
  | [] => []
  | [piece] => piece
  | piece :: pieces => piece ++ separator ++ join separator pieces

/-- `pattern` stands somewhere in `text`. -/
def occursIn (pattern : List Char) : List Char → Bool
  | [] => pattern.isEmpty
  | c :: rest => pattern.isPrefixOf (c :: rest) || occursIn pattern rest

/-- Texts joined with a separator. -/
def joinStrings (separator : String) (pieces : List String) : String :=
  String.ofList (join separator.toList (pieces.map String.toList))

end SkillEngine.Text
