import SkillEngine.Json.Basic
import SkillEngine.Text.Blank

/-!
# Figures of a text

How many words, characters, lines and paragraphs a text has.  A line feed ends a line, so the text
behind the last one counts only when it is not empty.  Paragraphs stand between pairs of line
feeds and hold more than white space.
-/

namespace SkillEngine

/-- The figures of a text. -/
structure TextStats where
  words : Nat
  characters : Nat
  lines : Nat
  paragraphs : Nat
  deriving DecidableEq

namespace Text

/-- The lines of a text: the pieces that a line feed ends, and what is left behind the last. -/
def lines (text : List Char) : List (List Char) :=
  match (cutLines text).getLast? with
  | some [] => (cutLines text).dropLast
  | _ => cutLines text

/-- The paragraphs of a text. -/
def paragraphs (text : List Char) : List (List Char) := (cutBlocks text).filter (!allBlank ·)

/-- The figures of a text. -/
def stats (text : List Char) : TextStats where
  words := (words text).length
  characters := text.length
  lines := (lines text).length
  paragraphs := (paragraphs text).length

end Text

/-- The figures as a document. -/
def TextStats.document (stats : TextStats) : Json :=
  .object (Dict.ofList [("words", .nat stats.words), ("characters", .nat stats.characters),
    ("lines", .nat stats.lines), ("paragraphs", .nat stats.paragraphs)])

end SkillEngine
